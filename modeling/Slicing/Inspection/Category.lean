/-!
# Categories

Whoever looks into a text finds more than its characters: its category, the operations of that
category, and what is known of those. Everything that can be found belongs to a category. Each
category but one is a special case of the category of anything, whose features it shares.

The features of a category are known by their names. Operators are the operations that have a
notation, and methods those that are called by name. Functions belong to the category itself and
not to one thing of it. Slots and fields are facts about a thing.
-/

namespace Slicing.Inspection

/-- What a thing is. -/
inductive Category where
  | text
  | anything
  | category
  | row
  | nothing
  /-- An operator, and one that belongs to a certain thing. -/
  | operator
  | boundOperator
  /-- A method, and one that belongs to a certain thing. -/
  | method
  | boundMethod
  | slot
  | field
  deriving DecidableEq

/-- How a feature is had. -/
inductive Form where
  | operator
  | method
  /-- A function that makes things of the category that has it. -/
  | maker
  /-- A function of no thing and no category. -/
  | function
  /-- A function of whatever category it is asked for. -/
  | shared
  | slot
  | field
  /-- The description of the category. -/
  | description
  deriving DecidableEq

/-- The names of the features that a category has of its own. -/
structure Features where
  operators : List String
  methods : List String
  makers : List String
  functions : List String
  shared : List String
  slots : List String
  fields : List String
  /-- Whether the description belongs to the things of the category as well. -/
  described : Bool

namespace Features

/-- The features of an operation or a fact that belongs to no certain thing. -/
def ofLoose (operators fields : List String) : Features where
  operators := ["__get__", "__getattribute__", "__repr__"] ++ operators
  methods := ["__reduce__"]
  makers := []
  functions := []
  shared := []
  slots := ["__name__", "__objclass__"]
  fields := ["__doc__", "__qualname__"] ++ fields
  described := false

/-- The features of an operation that belongs to a certain thing. -/
def ofBound (slots fields : List String) : Features where
  operators :=
    [ "__call__", "__eq__", "__ge__", "__getattribute__", "__gt__", "__hash__", "__le__",
      "__lt__", "__ne__", "__repr__" ]
  methods := ["__reduce__"]
  makers := []
  functions := []
  shared := []
  slots
  fields := ["__doc__", "__name__", "__qualname__", "__text_signature__"] ++ fields
  described := false

/-- How a feature of this name is had, if there is one. -/
def form? (f : Features) (name : String) : Option Form :=
  if f.operators.contains name then some .operator
  else if f.methods.contains name then some .method
  else if f.makers.contains name then some .maker
  else if f.functions.contains name then some .function
  else if f.shared.contains name then some .shared
  else if f.slots.contains name then some .slot
  else if f.fields.contains name then some .field
  else if f.described && name == "__doc__" then some .description
  else none

end Features

namespace Category

/-- The name of a category. -/
def name : Category → String
  | text => "str"
  | anything => "object"
  | category => "type"
  | row => "tuple"
  | nothing => "NoneType"
  | operator => "wrapper_descriptor"
  | boundOperator => "method-wrapper"
  | method => "method_descriptor"
  | boundMethod => "builtin_function_or_method"
  | slot => "member_descriptor"
  | field => "getset_descriptor"

/-- The text of a category. -/
def toText (c : Category) : String :=
  "<class '" ++ c.name ++ "'>"

/-- The categories of which this one is a special case. -/
def parents : Category → List Category
  | anything => []
  | _ => [anything]

/-- The category and those whose features it shares, in the order in which they are asked. -/
def ancestors (c : Category) : List Category :=
  c :: c.parents

/-! ## Features -/

/-- The features of anything. -/
def ofAnything : Features where
  operators :=
    [ "__delattr__", "__eq__", "__ge__", "__getattribute__", "__gt__", "__hash__", "__init__",
      "__le__", "__lt__", "__ne__", "__repr__", "__setattr__", "__str__" ]
  methods :=
    ["__dir__", "__format__", "__getstate__", "__reduce__", "__reduce_ex__", "__sizeof__"]
  makers := ["__new__"]
  functions := []
  shared := ["__init_subclass__", "__subclasshook__"]
  slots := []
  fields := ["__class__"]
  described := true

/-- The features of texts. -/
def ofText : Features where
  operators :=
    [ "__add__", "__contains__", "__eq__", "__ge__", "__getattribute__", "__getitem__", "__gt__",
      "__hash__", "__iter__", "__le__", "__len__", "__lt__", "__mod__", "__mul__", "__ne__",
      "__repr__", "__rmod__", "__rmul__", "__str__" ]
  methods :=
    [ "__format__", "__getnewargs__", "__sizeof__", "capitalize", "casefold", "center", "count",
      "encode", "endswith", "expandtabs", "find", "format", "format_map", "index", "isalnum",
      "isalpha", "isascii", "isdecimal", "isdigit", "isidentifier", "islower", "isnumeric",
      "isprintable", "isspace", "istitle", "isupper", "join", "ljust", "lower", "lstrip",
      "partition", "removeprefix", "removesuffix", "replace", "rfind", "rindex", "rjust",
      "rpartition", "rsplit", "rstrip", "split", "splitlines", "startswith", "strip", "swapcase",
      "title", "translate", "upper", "zfill" ]
  makers := ["__new__"]
  functions := ["maketrans"]
  shared := []
  slots := []
  fields := []
  described := true

/-- The features of rows. -/
def ofRow : Features where
  operators :=
    [ "__add__", "__contains__", "__eq__", "__ge__", "__getattribute__", "__getitem__", "__gt__",
      "__hash__", "__iter__", "__le__", "__len__", "__lt__", "__mul__", "__ne__", "__repr__",
      "__rmul__" ]
  methods := ["__getnewargs__", "count", "index"]
  makers := ["__new__"]
  functions := []
  shared := ["__class_getitem__"]
  slots := []
  fields := []
  described := true

/-- The features of categories, apart from those that tell how things are stored. -/
def ofCategory : Features where
  operators :=
    [ "__call__", "__delattr__", "__getattribute__", "__init__", "__or__", "__repr__", "__ror__",
      "__setattr__" ]
  methods :=
    ["__dir__", "__instancecheck__", "__sizeof__", "__subclasscheck__", "__subclasses__", "mro"]
  makers := ["__new__"]
  functions := []
  shared := ["__prepare__"]
  slots := ["__base__", "__mro__"]
  fields :=
    [ "__abstractmethods__", "__annotations__", "__bases__", "__doc__", "__module__", "__name__",
      "__qualname__", "__text_signature__" ]
  described := false

/-- The features of nothing. -/
def ofNothing : Features where
  operators := ["__bool__", "__repr__"]
  methods := []
  makers := ["__new__"]
  functions := []
  shared := []
  slots := []
  fields := []
  described := true

/-- The features that a category has of its own. -/
def features : Category → Features
  | text => ofText
  | anything => ofAnything
  | category => ofCategory
  | row => ofRow
  | nothing => ofNothing
  | operator | method => .ofLoose ["__call__"] ["__text_signature__"]
  | slot => .ofLoose ["__delete__", "__set__"] []
  | field => { Features.ofLoose ["__delete__", "__set__"] [] with methods := [] }
  | boundOperator => .ofBound ["__self__"] ["__objclass__"]
  | boundMethod => .ofBound ["__module__"] ["__self__"]

/-- The category that has a feature of this name first, and how the feature is had. -/
def find? (c : Category) (name : String) : Option (Category × Form) :=
  c.ancestors.findSome? fun a => (a.features.form? name).map (a, ·)

/-- All names of the features that a category has of its own. -/
def ownNames (c : Category) : List String :=
  let f := c.features
  f.operators ++ f.methods ++ f.makers ++ f.functions ++ f.shared ++ f.slots ++ f.fields ++
    (if f.described then ["__doc__"] else [])

/-! ## Descriptions -/

/-- The lines of the description of a category; some have none. -/
def description : Category → List String
  | text =>
    [ "str(object='') -> str",
      "str(bytes_or_buffer[, encoding[, errors]]) -> str",
      "",
      "Create a new string object from the given object. If encoding or",
      "errors is specified, then the object must expose a data buffer",
      "that will be decoded using the given encoding and error handler.",
      "Otherwise, returns the result of object.__str__() (if defined)",
      "or repr(object).",
      "encoding defaults to sys.getdefaultencoding().",
      "errors defaults to 'strict'." ]
  | anything =>
    [ "The base class of the class hierarchy.",
      "",
      "When called, it accepts no arguments and returns a new featureless",
      "instance that has no instance attributes and cannot be given any.",
      "" ]
  | category =>
    [ "type(object) -> the object's type",
      "type(name, bases, dict, **kwds) -> a new type" ]
  | row =>
    [ "Built-in immutable sequence.",
      "",
      "If no argument is given, the constructor returns an empty tuple.",
      "If iterable is specified the tuple is initialized from iterable's items.",
      "",
      "If the argument is a tuple, the return value is the same object." ]
  | _ => []

/-- How a category is called to make a thing of it, where that is written down. -/
def signature? : Category → Option String
  | anything => some "()"
  | row => some "(iterable=(), /)"
  | _ => none

end Category

end Slicing.Inspection
