import RustLint.Text.Segments

set_option autoImplicit false

namespace RustLint.StdLibrary

def defaultTrait : String := "core::default::Default"

/-- The traits of the prelude and their paths. -/
def preludeTraits : List (String × String) := [
  ("Default", defaultTrait),
  ("Clone", "core::clone::Clone"),
  ("Copy", "core::marker::Copy"),
  ("Debug", "core::fmt::Debug"),
  ("PartialEq", "core::cmp::PartialEq"),
  ("Eq", "core::cmp::Eq"),
  ("PartialOrd", "core::cmp::PartialOrd"),
  ("Ord", "core::cmp::Ord"),
  ("Hash", "core::hash::Hash")]

/-- The crates under which the standard library is known. -/
def crates : List String := ["core", "std", "alloc"]

/-- The path of a trait that every file can name. -/
def preludeTrait? (name : String) : Option String := preludeTraits.lookup name

/-- The standard trait that the segments of a path name: the first segment is any of the crates,
the rest is the path of a prelude trait. -/
def traitOfSegments? : List String → Option String
  | [] => none
  | crate :: rest =>
    match rest.getLast? with
    | none => none
    | some name =>
      (preludeTrait? name).filter fun path =>
        crates.contains crate && (Text.segments path).drop 1 == rest

/-- Types that are `Default` whatever their arguments are. -/
def defaultTypes : List String := [
  "bool", "char", "f32", "f64",
  "i8", "i16", "i32", "i64", "i128", "isize", "u8", "u16", "u32", "u64", "u128", "usize",
  "String", "Vec", "VecDeque", "LinkedList", "HashMap", "HashSet", "BTreeMap", "BTreeSet",
  "BinaryHeap", "Option", "PhantomData", "PhantomPinned", "Duration", "PathBuf", "OsString",
  "CString", "OnceCell", "OnceLock", "Weak",
  "AtomicBool", "AtomicI8", "AtomicI16", "AtomicI32", "AtomicI64", "AtomicI128", "AtomicIsize",
  "AtomicU8", "AtomicU16", "AtomicU32", "AtomicU64", "AtomicU128", "AtomicUsize"]

/-- Types that are `Default` when all their arguments are. -/
def wrapperTypes : List String := [
  "Box", "Rc", "Arc", "Cell", "RefCell", "UnsafeCell", "Mutex", "RwLock", "Wrapping",
  "Saturating", "Reverse", "ManuallyDrop"]

end RustLint.StdLibrary
