import ApiOutline.Dialect

/-!
What can go wrong: a line that does not fit the grammar, a document without a proper root, two parts
of an API with one name, a file that cannot be read or written, options that cannot be understood.

A fault carries its cause; the wording is in the functions named `message`, and nowhere else.
-/

namespace ApiOutline

/-- Why a line does not fit the grammar. -/
inductive GrammarFault where
  /-- A field line without a type. -/
  | missingType
  /-- A field whose name is not an identifier. -/
  | invalidFieldName (name : String)
  /-- Something else than a flag after the type of a field. -/
  | expectedFlag
  /-- A validation rule that does not start with a quote. -/
  | unquotedRule
  /-- A validation rule without a second quote. -/
  | unterminatedRule
  /-- A group line that holds nothing but a comment. -/
  | missingGroupName
  /-- A group whose name is not an identifier. -/
  | invalidGroupName (name : String)
  /-- An endpoint line with no words or too many. -/
  | wordCount (count : Nat)
  /-- An endpoint with a segment that is no identifier. -/
  | invalidEndpointName (name : String)
  /-- A wildcard endpoint in a dialect without wildcards. -/
  | wildcardUnsupported (name : String) (dialect : Dialect)
  /-- An endpoint with a protocol that does not exist. -/
  | unknownProtocol (name : String)
  /-- An entry of the authentication map without an equals sign. -/
  | malformedAuthEntry (entry : String)
  /-- An indentation between two levels. -/
  | unevenIndent (width levelWidth : Nat)
  /-- An endpoint before the first group. -/
  | endpointOutsideGroup
  /-- A field or marker where no endpoint is open. -/
  | fieldOutsideEndpoint
  /-- A field with nothing to be inside of. -/
  | noOpenField (depth : Nat)
  deriving DecidableEq, Repr

/-- Text between single quotes. -/
def quote (s : String) : String := "'" ++ s ++ "'"

def GrammarFault.message : GrammarFault → String
  | missingType => "missing type"
  | invalidFieldName name => "invalid field name " ++ quote name
  | expectedFlag => "expected 'true' or 'false' after the type"
  | unquotedRule => "validation rule must be quoted"
  | unterminatedRule => "unterminated validation rule"
  | missingGroupName => "missing group name"
  | invalidGroupName name => "invalid group name " ++ quote name
  | wordCount count => "endpoint line needs 1 to 4 tokens, found " ++ count.repr
  | invalidEndpointName name => "invalid endpoint name " ++ quote name
  | wildcardUnsupported name dialect =>
    "wildcard endpoint " ++ quote name ++ " is not supported by dialect " ++ dialect.name
  | unknownProtocol name => "unknown protocol " ++ quote name
  | malformedAuthEntry entry => "auth map entry " ++ quote entry ++ " is not alias=name"
  | unevenIndent width levelWidth =>
    "indentation of " ++ width.repr ++ " is not a multiple of " ++ levelWidth.repr
  | endpointOutsideGroup => "endpoint outside of a group"
  | fieldOutsideEndpoint => "field outside of an endpoint"
  | noOpenField depth => "no nested field open at depth " ++ depth.repr

/-- Why a document has no proper root. -/
inductive RootFault where
  /-- There is no line to read it from. -/
  | emptyDocument
  /-- The first line does not have the form of a root. -/
  | malformed
  /-- The name of the root is not an identifier. -/
  | invalidPrefix (name : String)
  /-- The version is not a `v` with digits after it. -/
  | invalidVersion (version : String)
  deriving DecidableEq, Repr

def RootFault.message : RootFault → String
  | emptyDocument => "empty document"
  | malformed => "expected 'root <prefix> [v<N>]'"
  | invalidPrefix name => "invalid prefix " ++ quote name
  | invalidVersion version =>
    "invalid version " ++ quote version ++ ", expected v followed by digits"

/-- Why a file operation fails. -/
inductive FileFault where
  /-- There is nothing at the path. -/
  | notFound
  /-- There is something at the path already. -/
  | alreadyExists
  /-- The path leads through a file. -/
  | notDirectory
  /-- There is a directory where a file is asked for. -/
  | isDirectory
  /-- The path names a directory by a dot, and a new name is asked for. -/
  | busy
  /-- The path, or a name on it, is longer than a file system takes. -/
  | nameTooLong
  /-- The path has a zero character in it. -/
  | zeroCharacter
  /-- The bytes of the file are no text. -/
  | invalidText
  /-- The source of the file gives another reason. -/
  | refused (reason : String)
  deriving DecidableEq, Repr

def FileFault.message : FileFault → String
  | notFound => "No such file or directory (os error 2)"
  | alreadyExists => "File exists (os error 17)"
  | notDirectory => "Not a directory (os error 20)"
  | isDirectory => "Is a directory (os error 21)"
  | busy => "Device or resource busy (os error 16)"
  | nameTooLong => "File name too long (os error 36)"
  | zeroCharacter => "file name contained an unexpected NUL byte"
  | invalidText => "stream did not contain valid UTF-8"
  | refused reason => reason

/-- What two parts of an API may share a name for. -/
inductive NameSpace where
  | path
  | definition
  deriving DecidableEq, Repr

def NameSpace.name : NameSpace → String
  | path => "path"
  | definition => "definition"

/-- Why options cannot be taken from a text. -/
inductive OptionsFault where
  /-- The text is not a mapping of the known keys to values of their kinds. -/
  | malformed
  /-- The width of a level is zero. -/
  | zeroTabWidth
  deriving DecidableEq, Repr

def OptionsFault.message : OptionsFault → String
  | malformed => "malformed options"
  | zeroTabWidth => "tab_width must be at least 1"

/-- Everything that can go wrong. -/
inductive Fault where
  /-- A line that does not fit the grammar. -/
  | grammar (line : Nat) (raw : String) (cause : GrammarFault)
  /-- A document without a proper root. -/
  | root (line : Nat) (raw : String) (cause : RootFault)
  /-- Two parts of an API with one name. -/
  | conflict (space : NameSpace) (name : String)
  /-- A file that cannot be read. -/
  | read (path : String) (cause : FileFault)
  /-- A file that cannot be written. -/
  | write (path : String) (cause : FileFault)
  /-- Options that cannot be understood. -/
  | options (cause : OptionsFault)
  deriving DecidableEq, Repr

namespace Fault

/-- The wording of a fault.  A fault of a line ends with that line as it was written. -/
def message : Fault → String
  | grammar line raw cause => "line " ++ line.repr ++ ": " ++ cause.message ++ "\n    " ++ raw
  | root line raw cause =>
    "line " ++ line.repr ++ ": invalid root: " ++ cause.message ++ "\n    " ++ raw
  | conflict space name => "duplicate " ++ space.name ++ " " ++ quote name
  | read path cause => "Failed to read " ++ quote path ++ ": " ++ cause.message
  | write path cause => "Failed to write output file " ++ quote path ++ ": " ++ cause.message
  | options cause => "Serialization failed: " ++ cause.message

/-- The line a fault points at. -/
def line? : Fault → Option Nat
  | grammar line _ _ | root line _ _ => some line
  | conflict _ _ | read _ _ | write _ _ | options _ => none

/-- Whether a line does not fit the grammar. -/
def isGrammar : Fault → Bool
  | grammar _ _ _ => true
  | root _ _ _ | conflict _ _ | read _ _ | write _ _ | options _ => false

end Fault

end ApiOutline
