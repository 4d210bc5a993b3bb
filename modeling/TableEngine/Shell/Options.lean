/-!
The arguments that the shell is called with.
-/

namespace TableEngine

/-- What the shell starts from. -/
structure Options where
  /-- The file to read the databases from. -/
  importPath : Option String
  /-- The database to use from the start. -/
  database : Option String
  deriving DecidableEq

/-- What the arguments ask for. -/
inductive Invocation where
  | version
  | run (options : Options)
  /-- The arguments cannot be understood from this one on. -/
  | misuse (argument : String)
  deriving DecidableEq

namespace Options

/-- Nothing chosen. -/
def none : Options :=
  ⟨.none, .none⟩

/-- The options that take a value. -/
inductive Name where
  | importPath
  | database
  deriving DecidableEq

def Name.short : Name → Char
  | importPath => 'i'
  | database => 'd'

def Name.long : Name → String
  | importPath => "import"
  | database => "database"

/-- Chooses a value for an option, which may be done once. A file has to have a name. -/
def choose (options : Options) : Name → String → Option Options
  | .importPath, path =>
    if options.importPath.isNone && !path.isEmpty then some { options with importPath := path }
    else .none
  | .database, name =>
    if options.database.isNone then some { options with database := name } else .none

/-- The value that an argument gives to an option. The inner value is missing if the argument names the
    option and leaves the value to the next argument. -/
def value? (name : Name) (argument : List Char) : Option (Option (List Char)) :=
  let long := '-' :: '-' :: name.long.toList
  match argument with
  | '-' :: c :: rest =>
    if c = name.short then
      match rest with
      | [] => some .none
      | '=' :: value => some (some value)
      | value => some (some value)
    else if argument = long then some .none
    else if (long ++ ['=']).isPrefixOf argument then some (some (argument.drop (long.length + 1)))
    else .none
  | _ => .none

/-- The option that an argument names, with the value that it gives. -/
def named? (argument : String) : Option (Name × Option (List Char)) :=
  [Name.importPath, Name.database].findSome? fun name =>
    (value? name argument.toList).map fun value => (name, value)

/-- Whether an argument can stand as the value of the option before it. -/
def isValue (argument : String) : Bool :=
  argument.toList.head? != some '-' || argument == "-"

/-- Whether an argument asks for the version. Letters after the short form do not matter. -/
def asksVersion (argument : String) : Bool :=
  argument == "--version" || ['-', 'V'].isPrefixOf argument.toList

/-- Understands arguments, given what was chosen before. Two dashes end the options, and nothing may
    follow them. -/
def parseFrom (options : Options) : List String → Invocation
  | [] => .run options
  | argument :: rest =>
    if argument = "--" then
      match rest with
      | [] => .run options
      | next :: _ => .misuse next
    else if asksVersion argument then .version
    else match named? argument, rest with
      | some (name, some value), rest =>
        match options.choose name (String.ofList value) with
        | some options => parseFrom options rest
        | .none => .misuse argument
      | some (name, .none), value :: rest =>
        match isValue value, options.choose name value with
        | true, some options => parseFrom options rest
        | _, _ => .misuse argument
      | _, _ => .misuse argument

def parse (arguments : List String) : Invocation :=
  parseFrom none arguments

end Options

end TableEngine
