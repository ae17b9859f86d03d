import TopicFilter.Text

/-!
# Store/Attributes/Names — the names that classes keep for all their values

A value of most classes takes no attribute. Which failure an assignment meets depends on the name: one that the class
has for all its values, one that the class computes for each value, or one that it does not know.
-/

namespace TopicFilter.AttributeNames

/-- The names in some lines. -/
def words (lines : List String) : List String := lines.flatMap (·.splitOn " ")

/-! ## The same for all values -/

/-- The names that every class has. -/
def common : List String :=
  words ["__delattr__ __dir__ __doc__ __eq__ __format__ __ge__ __getattribute__ __getstate__",
    "__gt__ __hash__ __init__ __init_subclass__ __le__ __lt__ __ne__ __new__ __reduce__",
    "__reduce_ex__ __repr__ __setattr__ __sizeof__ __str__ __subclasshook__"]

/-- The names of arithmetic. -/
def arithmetic : List String :=
  words ["__abs__ __add__ __bool__ __ceil__ __divmod__ __float__ __floor__ __floordiv__",
    "__getnewargs__ __int__ __mod__ __mul__ __neg__ __pos__ __pow__ __radd__ __rdivmod__",
    "__rfloordiv__ __rmod__ __rmul__ __round__ __rpow__ __rsub__ __rtruediv__ __sub__",
    "__truediv__ __trunc__ as_integer_ratio conjugate"]

/-- The further names of whole numbers. -/
def wholeNumber : List String :=
  words ["__and__ __index__ __invert__ __lshift__ __or__ __rand__ __rlshift__ __ror__",
    "__rrshift__ __rshift__ __rxor__ __xor__ bit_count bit_length from_bytes to_bytes"]

/-- The further names of floating-point numbers. -/
def floatingPoint : List String :=
  words ["__getformat__ fromhex hex is_integer"]

/-- The names of what has items in order. -/
def sequence : List String :=
  words ["__add__ __contains__ __getitem__ __iter__ __len__ __mul__ __rmul__ count index"]

/-- The further names of texts and of byte strings of all sorts. -/
def textual : List String :=
  words ["__mod__ __rmod__ capitalize center endswith expandtabs find isalnum isalpha isascii",
    "isdigit islower isspace istitle isupper join ljust lower lstrip maketrans partition",
    "removeprefix removesuffix replace rfind rindex rjust rpartition rsplit rstrip split",
    "splitlines startswith strip swapcase title translate upper zfill"]

/-- The further names of texts alone. -/
def textOnly : List String :=
  words ["__getnewargs__ casefold encode format format_map isdecimal isidentifier isnumeric",
    "isprintable"]

/-- The further names of byte strings. -/
def byteString : List String :=
  words ["__bytes__ __getnewargs__ decode fromhex hex"]

/-- The further names of what has items in order and can change. -/
def changing : List String :=
  words ["__delitem__ __iadd__ __imul__ __setitem__ append clear copy extend insert pop remove",
    "reverse"]

/-- The further names of buffers. -/
def buffer : List String :=
  words ["__alloc__ decode fromhex hex"]

/-- The names of views. -/
def view : List String :=
  words ["__delitem__ __enter__ __exit__ __getitem__ __iter__ __len__ __setitem__ cast hex",
    "release tobytes tolist toreadonly"]

/-- The further names of lists. -/
def list : List String :=
  words ["__class_getitem__ __reversed__ sort"]

/-- The further names of tuples. -/
def tuple : List String :=
  words ["__class_getitem__ __getnewargs__"]

/-- The names of sets of both sorts. -/
def anySet : List String :=
  words ["__and__ __class_getitem__ __contains__ __iter__ __len__ __or__ __rand__ __ror__",
    "__rsub__ __rxor__ __sub__ __xor__ copy difference intersection isdisjoint issubset",
    "issuperset symmetric_difference union"]

/-- The further names of sets that can change. -/
def changingSet : List String :=
  words ["__iand__ __ior__ __isub__ __ixor__ add clear difference_update discard",
    "intersection_update pop remove symmetric_difference_update update"]

/-- The names of mappings. -/
def mapping : List String :=
  words ["__class_getitem__ __contains__ __delitem__ __getitem__ __ior__ __iter__ __len__",
    "__or__ __reversed__ __ror__ __setitem__ clear copy fromkeys get items keys pop",
    "popitem setdefault update values"]

/-- The names of iterators. -/
def iterator : List String :=
  words ["__iter__ __length_hint__ __next__ __setstate__"]

/-- The names of paths. -/
def path : List String :=
  words ["__bytes__ __enter__ __exit__ __fspath__ __module__ __rtruediv__ __slots__",
    "__truediv__ _flavour _format_parsed_parts _from_parsed_parts _from_parts _make_child",
    "_make_child_relpath _parse_args _scandir absolute as_posix as_uri chmod cwd exists",
    "expanduser glob group hardlink_to home is_absolute is_block_device is_char_device",
    "is_dir is_fifo is_file is_mount is_relative_to is_reserved is_socket is_symlink",
    "iterdir joinpath lchmod link_to lstat match mkdir open owner read_bytes read_text",
    "readlink relative_to rename replace resolve rglob rmdir samefile stat symlink_to",
    "touch unlink with_name with_stem with_suffix write_bytes write_text"]

/-- The names that a class has for all its values, apart from those that every class has. -/
def ofClass : String → List String
  | "NoneType" => ["__bool__"]
  | "bool" | "int" => arithmetic ++ wholeNumber
  | "float" => arithmetic ++ floatingPoint
  | "str" => sequence ++ textual ++ textOnly
  | "bytes" => sequence ++ textual ++ byteString
  | "bytearray" => sequence ++ textual ++ changing ++ buffer
  | "memoryview" => view
  | "list" => sequence ++ changing ++ list
  | "tuple" => sequence ++ tuple
  | "set" => anySet ++ changingSet
  | "frozenset" => anySet
  | "dict" => mapping
  | "list_iterator" => iterator
  | "PosixPath" => path
  | _ => []

/-- The class has the name for all its values. -/
def isShared (className : String) (name : Text) : Bool :=
  (common ++ ofClass className).any (text · = name)

/-! ## Computed for each value -/

/-- The names that a class computes, and the class that does it. -/
def computed : String → String × List String
  | "bool" | "int" => ("int", ["denominator", "imag", "numerator", "real"])
  | "float" => ("float", ["imag", "real"])
  | "memoryview" =>
    ("memoryview",
      words ["c_contiguous contiguous f_contiguous format itemsize nbytes ndim obj readonly shape",
        "strides suboffsets"])
  | className => (className, [])

/-- The class that computes an attribute of a value of some class. -/
def computedBy? (className : String) (name : Text) : Option String :=
  let (owner, names) := computed className
  if names.any (text · = name) then some owner else none

/-- The attributes of paths that are properties. -/
def pathProperties : List String :=
  words ["_cparts anchor drive name parent parents parts root stem suffix suffixes"]

/-- The attributes of paths that can be assigned. -/
def pathSlots : List String := words ["_cached_cparts _drv _hash _parts _pparts _root _str"]

end TopicFilter.AttributeNames
