import UnitLoader.Text.Replace

/-!
# Fixed text of a dispatch module

A dispatch module is one line of code, with a space between tokens. These are the stretches of it
that are the same for every unit.
-/

namespace UnitLoader.Dispatch.Template

/-- Lines of code as one line. -/
def lines (code : List String) : List Char := Text.join [' '] (code.map String.toList)

/-- The attributes of the dispatch module, its opening, and what it uses. -/
def heading : List Char := lines
  ["# [doc (hidden)] # [allow (dead_code , unused_imports , unused_variables , unused_mut ,",
    "unused_unsafe , clippy :: all)] mod __hotload_shim \x7b use std :: convert :: TryInto ; use",
    "std :: ffi :: c_void ; use std :: marker :: PhantomData ; use std :: panic :: \x7b",
    "catch_unwind , AssertUnwindSafe \x7d ;"]

/-- The choice of how a result becomes text: for display, else for debugging, else not at all. -/
def rendering : List Char := lines
  ["struct ShimRender < 'a , T > (& 'a T) ; trait ShimViaDisplay \x7b fn render (& self) ->",
    "String ; \x7d impl < T : std :: fmt :: Display > ShimViaDisplay for && ShimRender < '_ , T >",
    "\x7b fn render (& self) -> String \x7b self . 0 . to_string () \x7d \x7d trait ShimViaDebug",
    "\x7b fn render (& self) -> String ; \x7d impl < T : std :: fmt :: Debug > ShimViaDebug for &",
    "ShimRender < '_ , T > \x7b fn render (& self) -> String \x7b format ! (\"\x7b:?\x7d\" , self",
    ". 0) \x7d \x7d trait ShimOpaque \x7b fn render (& self) -> String ; \x7d impl < T >",
    "ShimOpaque for ShimRender < '_ , T > \x7b fn render (& self) -> String \x7b String :: from",
    "(\"<opaque>\") \x7d \x7d"]

/-- The choice of how an instance is made: as the default of its type, or not at all. -/
def making : List Char := lines
  ["struct ShimMake < T > (PhantomData < T >) ; trait ShimViaDefault \x7b type Value ; fn make",
    "(& self) -> Option < Self :: Value > ; \x7d impl < T : Default > ShimViaDefault for &",
    "ShimMake < T > \x7b type Value = T ; fn make (& self) -> Option < T > \x7b Some (T ::",
    "default ()) \x7d \x7d trait ShimNoDefault \x7b type Value ; fn make (& self) -> Option <",
    "Self :: Value > ; \x7d impl < T > ShimNoDefault for ShimMake < T > \x7b type Value = T ; fn",
    "make (& self) -> Option < T > \x7b None \x7d \x7d"]

/-- The reader of an argument buffer. -/
def decoding : List Char := lines
  ["fn decode_args (mut rest : & [u8]) -> Option < Vec < String >> \x7b let mut args = Vec ::",
    "new () ; while ! rest . is_empty () \x7b if rest . len () < 8 \x7b return None ; \x7d let",
    "(len , tail) = rest . split_at (8) ; let len = u64 :: from_le_bytes (len . try_into () . ok",
    "() ?) as usize ; if tail . len () < len \x7b return None ; \x7d let (arg , tail) = tail .",
    "split_at (len) ; args . push (String :: from_utf8 (arg . to_vec ()) . ok () ?) ; rest = tail",
    "; \x7d Some (args) \x7d"]

/-- The handing over of a text as an output buffer. -/
def emitting : List Char := lines
  ["unsafe fn emit (text : String , out_ptr : * mut * mut u8 , out_len : * mut usize) \x7b let",
    "bytes = text . into_bytes () . into_boxed_slice () ; let len = bytes . len () ; unsafe \x7b",
    "* out_ptr = Box :: into_raw (bytes) . cast :: < u8 > () ; * out_len = len ; \x7d \x7d"]

/-- The text of a failure that unwinds. -/
def payloadText : List Char := lines
  ["fn panic_message (payload : Box < dyn std :: any :: Any + Send >) -> String \x7b if let Some",
    "(s) = payload . downcast_ref :: < & str > () \x7b s . to_string () \x7d else if let Some (s)",
    "= payload . downcast_ref :: < String > () \x7b s . clone () \x7d else \x7b String :: from",
    "(\"panic with a non-string payload\") \x7d \x7d"]

/-- The opening of the function that runs an operation by its index. -/
def dispatchOpening : List Char := lines
  ["fn dispatch (instance : * mut c_void , op : usize , args : & [String]) -> Result < String ,",
    "(i32 , String) > \x7b match op \x7b"]

/-- What answers any other index, and the end of that function. -/
def dispatchClosing : List Char := lines
  ["_ => Err ((- 2i32 , format ! (\"unknown operation index \x7b\x7d\" , op))) , \x7d \x7d"]

/-- The exported function that shows the manifest. -/
def manifestExport : List Char := lines
  ["# [unsafe (no_mangle)] pub unsafe extern \"C\" fn __hotload_manifest (out_ptr : * mut *",
    "const u8 , out_len : * mut usize) \x7b unsafe \x7b * out_ptr = MANIFEST . as_ptr () ; *",
    "out_len = MANIFEST . len () ; \x7d \x7d"]

/-- The opening of the exported function that makes an instance. -/
def newOpening : List Char := lines
  ["# [unsafe (no_mangle)] pub extern \"C\" fn __hotload_new () -> * mut c_void \x7b"]

/-- An instance made as the default of its type. -/
def newDefault : List Char := lines
  ["match catch_unwind (|| (&& ShimMake :: < Target > (PhantomData)) . make ()) \x7b Ok (Some",
    "(value)) => Box :: into_raw (Box :: new (value)) . cast :: < c_void > () , _ => std :: ptr",
    ":: null_mut () , \x7d"]

/-- No instance. -/
def newNothing : List Char := lines
  ["std :: ptr :: null_mut ()"]

/-- The opening of the exported function that drops an instance. -/
def dropOpening : List Char := lines
  ["# [unsafe (no_mangle)] pub unsafe extern \"C\" fn __hotload_drop (instance : * mut c_void)",
    "\x7b"]

/-- The instance is dropped, and no failure leaves the function. -/
def dropBoxed : List Char := lines
  ["if ! instance . is_null () \x7b let boxed = unsafe \x7b Box :: from_raw (instance . cast ::",
    "< Target > ()) \x7d ; let _ = catch_unwind (AssertUnwindSafe (move || drop (boxed))) ; \x7d"]

/-- Nothing is dropped. -/
def dropNothing : List Char := lines
  ["let _ = instance ;"]

/-- The exported function that frees an output buffer. -/
def freeExport : List Char := lines
  ["# [unsafe (no_mangle)] pub unsafe extern \"C\" fn __hotload_free (ptr : * mut u8 , len :",
    "usize) \x7b if ! ptr . is_null () \x7b drop (unsafe \x7b Box :: from_raw (std :: ptr ::",
    "slice_from_raw_parts_mut (ptr , len)) \x7d) ; \x7d \x7d"]

/-- The exported function that runs an operation. -/
def invokeExport : List Char := lines
  ["# [unsafe (no_mangle)] pub unsafe extern \"C\" fn __hotload_invoke (instance : * mut c_void",
    ", op : usize , args_ptr : * const u8 , args_len : usize , out_ptr : * mut * mut u8 , out_len",
    ": * mut usize ,) -> i32 \x7b let raw : & [u8] = if args_ptr . is_null () || args_len == 0",
    "\x7b & [] \x7d else \x7b unsafe \x7b std :: slice :: from_raw_parts (args_ptr , args_len)",
    "\x7d \x7d ; let Some (args) = decode_args (raw) else \x7b unsafe \x7b emit (String :: from",
    "(\"malformed argument buffer\") , out_ptr , out_len) \x7d ; return - 1 ; \x7d ; let (code ,",
    "text) = match catch_unwind (AssertUnwindSafe (|| dispatch (instance , op , & args))) \x7b Ok",
    "(Ok (text)) => (0i32 , text) , Ok (Err (failure)) => failure , Err (payload) => (- 4i32 ,",
    "panic_message (payload)) , \x7d ; unsafe \x7b emit (text , out_ptr , out_len) \x7d ; code",
    "\x7d"]

/-- A closing brace. -/
def closing : List Char := ['\x7d']

end UnitLoader.Dispatch.Template
