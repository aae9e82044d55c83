import UnitLoader.Library.Script
import UnitLoader.Main
import UnitLoader.Proofs.Archive.Limits
import UnitLoader.Proofs.Archive.RoundTrip
import UnitLoader.Proofs.Archive.Truncation
import UnitLoader.Proofs.Arguments
import UnitLoader.Proofs.Balance
import UnitLoader.Proofs.CommandLine.AllOrNothing
import UnitLoader.Proofs.CommandLine.Calling
import UnitLoader.Proofs.CommandLine.Outputs
import UnitLoader.Proofs.CommandLine.Packing
import UnitLoader.Proofs.Diagnostic.Lines
import UnitLoader.Proofs.Dispatch.Anchor
import UnitLoader.Proofs.Dispatch.Attribution
import UnitLoader.Proofs.Dispatch.Borrows
import UnitLoader.Proofs.Dispatch.Declared
import UnitLoader.Proofs.Dispatch.Manifest
import UnitLoader.Proofs.Dispatch.Mirror
import UnitLoader.Proofs.Dispatch.Operations
import UnitLoader.Proofs.Dispatch.Reached
import UnitLoader.Proofs.Dispatch.Returns
import UnitLoader.Proofs.Dispatch.Spacing
import UnitLoader.Proofs.Dispatch.Stretch
import UnitLoader.Proofs.Dispatch.Target
import UnitLoader.Proofs.Dispatch.TypeText
import UnitLoader.Proofs.Engine.Agreement
import UnitLoader.Proofs.Engine.Delivery
import UnitLoader.Proofs.Engine.Detection
import UnitLoader.Proofs.Engine.Export
import UnitLoader.Proofs.Engine.Failure
import UnitLoader.Proofs.Engine.Host
import UnitLoader.Proofs.Engine.Independence
import UnitLoader.Proofs.Engine.LoadedOnce
import UnitLoader.Proofs.Engine.Reports
import UnitLoader.Proofs.Engine.SearchPath
import UnitLoader.Proofs.Invocation
import UnitLoader.Proofs.Json.Lexeme
import UnitLoader.Proofs.Json.Reader
import UnitLoader.Proofs.Manifest
import UnitLoader.Proofs.NameParts
import UnitLoader.Proofs.Outline.Frames
import UnitLoader.Proofs.Outline.Groups
import UnitLoader.Proofs.Outline.Keyword
import UnitLoader.Proofs.Outline.Passage
import UnitLoader.Proofs.Outline.Positions
import UnitLoader.Proofs.Text.Offset
