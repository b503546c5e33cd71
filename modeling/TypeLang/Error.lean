import TypeLang.Schema.Kind
import TypeLang.Value.Diagnostic

/-!
Everything that can go wrong, by cause, and what is said about it. Text that is no schema,
declarations that cannot stand together, bytes that are no object and values that cannot be written
each have causes of their own; the wording of all of them is in `Error.message`.
-/

set_option autoImplicit false
set_option relaxedAutoImplicit false

namespace TypeLang

/-- What the reader of declarations waits for. -/
inductive Expectation
  | combinatorName | tag | parameterName | colon | constraint | rightBrace | equals | type
  | invokedParameter | rightAngle | semicolon
deriving DecidableEq, Repr

/-- What a schema text got wrong at some place. -/
inductive SyntaxFault
  | unexpected (expected : Expectation) (found : Token)
  | unknownMarker (text : String)
  | wideTag (digits : String)
  | invalidTag (digits : String)
  | qualifiedArgument (name : String)
  | duplicateArgument (name : String)
  | conditionalMask
  | unknownParameter (name : String)
  | missingElementType
  | conditionForm (text : String)
  | bitNotANumber (text : String)
  | bitOutOfRange (bit : Nat)
  | notAMask (name : String)
  | maskNotDeclared (name : String)
deriving DecidableEq, Repr

/-- Why bytes are no object although there are enough of them. -/
inductive MalformedReason
  | reservedMarker | nestedTooDeeply | emptyStreamObject | trailingBytes
  | element (text : String)
deriving DecidableEq, Repr

/-- Why declarations cannot stand together, or why a value cannot be written. -/
inductive StateFault
  | declaredTwice (name : String) (firstLine secondLine : Nat)
  | sharedTag (tag : UInt32) (first second : String)
  | tooManyMasks (name : String) (limit : Nat)
  | undeclaredMask (owner argument mask : String)
  | untaggedMember (union member : String)
  | wrongType (field : String) (kind : Kind) (value : Value)
  | wrongMask (field : String) (value : Value)
  | missingValue (field : String)
  | missingLength (field : String)
  | presenceDiffers (field : String) (value : Bool) (bit : UInt8) (isSet : Bool)
  | setWithoutValue (bit : UInt8) (field : String)
  | clearWithValue (field : String) (bit : UInt8)
  | untaggedBoxed (name : String)
  | notAConstructor (name typeName : String)
  | tooManyItems (field : String)
  | longVector (length : Nat)
  | longByteString (length : Nat)
  | inexact (what : String) (supplied size : Nat)
  | noFieldNumber (name : String) (index : Nat)
  | noFieldNamed (name : String)
  | notAnObject (index : Nat) (kind : Kind)
  | outOfOrder (field : String)
  | skipped (earlier field : String)
  | neverWritten (field : String)

/-- The cause of a failure. An overflow of arithmetic is not one that a caller can handle: it ends
the program. -/
inductive Error
  | badSyntax (line column : Nat) (fault : SyntaxFault)
  | unknownConstructor (tag : UInt32)
  | truncated (offset needed available : Nat)
  | malformed (offset : Nat) (reason : MalformedReason)
  | invalidState (fault : StateFault)
  | unknownType (name : String)
  | overflow

/-- A text between backquotes. -/
def backquoted (text : String) : String := "\x60" ++ text ++ "\x60"

namespace Expectation

/-- The words for what is expected. -/
def text : Expectation → String
  | combinatorName => "combinator name"
  | tag => "hexadecimal constructor tag"
  | parameterName => "generic parameter name"
  | colon => backquoted ":"
  | constraint => "generic parameter constraint"
  | rightBrace => backquoted "\x7d"
  | equals => backquoted "=" ++ " or argument"
  | type => "type"
  | invokedParameter => "generic parameter after " ++ backquoted "!"
  | rightAngle => backquoted ">"
  | semicolon => backquoted ";"

end Expectation

/-- The words for a token that was not expected. -/
def Token.found (t : Token) : String :=
  match t.kind with
  | .finish => "end of input"
  | .invalid => "invalid input (" ++ t.text ++ ")"
  | _ => backquoted t.text

/-- What is said about a fault in a schema text. -/
def SyntaxFault.message : SyntaxFault → String
  | unexpected expected found => "expected " ++ expected.text ++ ", found " ++ found.found
  | unknownMarker text => "unknown section marker " ++ backquoted text
  | wideTag digits => "constructor tag " ++ backquoted digits ++ " wider than 32 bits"
  | invalidTag digits => "invalid constructor tag " ++ backquoted digits
  | qualifiedArgument name => "argument name " ++ backquoted name ++ " may not be qualified"
  | duplicateArgument name => "duplicate argument " ++ backquoted name
  | conditionalMask => "a flags field cannot itself be conditional"
  | unknownParameter name => backquoted ("!" ++ name) ++ " does not name a generic parameter"
  | missingElementType => "vector type requires an element type " ++ backquoted "<T>"
  | conditionForm text => backquoted text ++ " is not of the form flags.N"
  | bitNotANumber text => backquoted text ++ " is not a flag bit index"
  | bitOutOfRange bit => "flag bit " ++ toString bit ++ " out of range (0..32)"
  | notAMask name => backquoted name ++ " is not a flags (" ++ backquoted "#" ++ ") field"
  | maskNotDeclared name => "flags field " ++ backquoted name ++ " is not declared before use"

/-- What is said about bytes that are no object. -/
def MalformedReason.message : MalformedReason → String
  | reservedMarker => "reserved byte string length marker 0xff"
  | nestedTooDeeply => "objects nested too deeply"
  | emptyStreamObject => "zero-sized object in a stream"
  | trailingBytes => "trailing bytes after object"
  | element text => text

/-- The word for the state of a bit. -/
def bitState (isSet : Bool) : String := if isSet then "set" else "clear"

/-- What is said about declarations or values that do not fit. -/
def StateFault.message : StateFault → String
  | declaredTwice name firstLine secondLine =>
    "combinator " ++ backquoted name ++ " declared twice (line " ++ toString firstLine ++
      " and line " ++ toString secondLine ++ ")"
  | sharedTag tag first second =>
    "constructor tag 0x" ++ Text.Hex.word tag ++ " used by both " ++ backquoted first ++
      " and " ++ backquoted second
  | tooManyMasks name limit =>
    backquoted name ++ " declares more than " ++ toString limit ++ " flags fields"
  | undeclaredMask owner argument mask =>
    backquoted (owner ++ "." ++ argument) ++ " refers to undeclared flags field " ++
      backquoted mask
  | untaggedMember union member =>
    "union " ++ backquoted union ++ " member " ++ backquoted member ++
      " has no constructor tag"
  | wrongType field kind value =>
    backquoted field ++ " expects " ++ kind.text ++ ", got " ++ value.diagnostic
  | wrongMask field value =>
    backquoted field ++ " expects flags, got " ++ value.diagnostic
  | missingValue field => "missing value for " ++ backquoted field
  | missingLength field => "no encoded length for " ++ backquoted field
  | presenceDiffers field value bit isSet =>
    backquoted field ++ " is " ++ toString value ++ " but flag bit " ++ toString bit.toNat ++
      " is " ++ bitState isSet
  | setWithoutValue bit field =>
    "flag bit " ++ toString bit.toNat ++ " is set but " ++ backquoted field ++ " has no value"
  | clearWithValue field bit =>
    backquoted field ++ " has a value but flag bit " ++ toString bit.toNat ++ " is clear"
  | untaggedBoxed name =>
    backquoted name ++ " has no constructor tag and cannot be written boxed"
  | notAConstructor name typeName =>
    backquoted name ++ " is not a constructor of " ++ backquoted typeName
  | tooManyItems field => backquoted field ++ " has too many elements"
  | longVector length => "vector of " ++ toString length ++ " elements"
  | longByteString length =>
    "byte string of " ++ toString length ++ " bytes exceeds the 24-bit length prefix"
  | inexact what supplied size =>
    what ++ ": " ++ toString supplied ++ " bytes supplied but the value occupies " ++
      toString size
  | noFieldNumber name index => backquoted name ++ " has no field #" ++ toString index
  | noFieldNamed name => "no field " ++ backquoted name
  | notAnObject index kind =>
    "field #" ++ toString index ++ " is " ++ kind.text ++ ", not an object"
  | outOfOrder field => backquoted field ++ " written out of order"
  | skipped earlier field =>
    backquoted earlier ++ " must be written before " ++ backquoted field
  | neverWritten field => backquoted field ++ " was never written"

namespace Error

/-- What is said about a failure. -/
def message : Error → String
  | badSyntax line column fault =>
    "schema syntax error at " ++ toString line ++ ":" ++ toString column ++ ": " ++
      fault.message
  | unknownConstructor tag => "unknown constructor 0x" ++ Text.Hex.word tag
  | truncated offset needed available =>
    "truncated buffer: need " ++ toString needed ++ " bytes at offset " ++ toString offset ++
      ", have " ++ toString available
  | malformed offset reason =>
    "malformed input at offset " ++ toString offset ++ ": " ++ reason.message
  | invalidState fault => "invalid field state: " ++ fault.message
  | unknownType name => "unknown type: " ++ name
  | overflow => "arithmetic overflow"

/-- Whether the bytes that were read are at fault, and not the schema or its user. -/
def isDecodeError : Error → Bool
  | unknownConstructor _ | truncated .. | malformed .. => true
  | badSyntax .. | invalidState _ | unknownType _ | overflow => false

/-- A fault of a schema text at a place. -/
def atPosition (p : Position) (fault : SyntaxFault) : Error := badSyntax p.line p.column fault

end Error

end TypeLang
