import Marshal.Array.Shape
import Marshal.Array.Element
import Marshal.Error.Kind
import Marshal.Text.Quoted
import Marshal.Text.Utf8

/-!
# `Error.Fault` — the causes of errors

Every failure that the library itself detects, with the values that explain it. A fault has a
built-in error kind and a detail text; raising it is left to whoever knows the registry.

## Contents

* `Fault` — the causes;
* `Fault.builtin`, `Fault.detail` — the kind and the detail of a cause.
-/

namespace Marshal

open Marshal.Text

/-- Why an operation fails. -/
inductive Fault
  /-- The host's callback table has another layout version. -/
  | tableVersion (found expected : Int)
  | noTable
  | nullTable
  | unknownId (id : Int)
  | unknownName (name : String)
  | nameTaken (name : String) (id : Int)
  | argumentCount (count : Int)
  | argumentSlots (count : Nat)
  | argumentIndex (index count : Nat)
  /-- A container argument could not be fetched; `cause` is the text of the error behind it. -/
  | containerArgument (kind : ContainerKind) (cause : String)
  | resultText
  | emptyArray (family : Family)
  | noArrayData (family : Family)
  | arrayCreation (type : ElementType) (dims : List Int)
  | arrayCopy (family : Family)
  | tensorElement (requested : TensorType) (found : Option TensorType)
  | numericElement (requested found : NumericType)
  | elementCount (family : Family) (given present : Nat)
  | position (family : Family) (fault : PositionFault) (position dims : List Int)
  | conversion (target : NumericType)
  | packetEncoding (text : String)
  | packetRefused
  | packetProcessing
  | noLink
  | nullNode
  | nodeKind (found : Kind) (requested : String)
  | nodeWithoutValue (found : Kind)
  | nodeData
  | nullCollection
  | nodeName (name : String)
  | nodeText
  | collectionCreation
  | collectionCopy
  | nullSlot (kind : Kind)
  | erasedNode
  | openMode (mode : String)
  | pathRefused (path : String)
  | openFailed (path reason : String)
  | abortRequested
  | nullSymbol
  | symbolText (fault : Utf8.Fault)
  | breakdown (text : String)
  deriving DecidableEq, Repr

/-- Integers in brackets, separated by commas. -/
def listText (xs : List Int) : String := "[" ++ String.intercalate ", " (xs.map toString) ++ "]"

namespace Fault

/-- Pick the kind that belongs to a family of arrays. -/
def byFamily (family : Family) (tensor numericArray : Builtin) : Builtin :=
  match family with
  | .tensor => tensor
  | .numericArray => numericArray

/-- The error kind of a cause. -/
def builtin : Fault → Builtin
  | tableVersion .. => .version
  | noTable | nullTable => .libraryData
  | unknownId _ => .unknownId
  | unknownName _ => .unknownName
  | nameTaken .. => .nameTaken
  | argumentCount _ | argumentSlots _ | argumentIndex .. => .argumentIndex
  | containerArgument .tensor _ => .argumentTensor
  | containerArgument .numericArray _ => .argumentNumericArray
  | containerArgument .collection _ => .argumentDataList
  | resultText => .type
  | emptyArray family | noArrayData family => byFamily family .tensorInit .numericArrayInit
  | arrayCreation type _ => byFamily type.family .tensorNew .numericArrayNew
  | arrayCopy family => byFamily family .tensorClone .numericArrayClone
  | tensorElement .. => .tensorType
  | numericElement .. => .numericArrayType
  | elementCount family .. | position family .rank _ _ =>
    byFamily family .tensorSize .numericArraySize
  | position family .bounds _ _ => byFamily family .tensorIndex .numericArrayIndex
  | conversion _ => .numericArrayConversion
  | packetEncoding _ => .linkEncode
  | packetRefused => .linkPutPacket
  | packetProcessing => .linkProcess
  | noLink => .linkNotAvailable
  | nullNode => .nullNode
  | nodeKind .. | nodeWithoutValue _ => .invalidNodeType
  | nodeData => .nodeData
  | nullCollection => .nullCollection
  | nodeName _ | nodeText => .pushBackType
  | collectionCreation => .collectionCreate
  | collectionCopy => .collectionClone
  | nullSlot _ => .nullSlot
  | erasedNode => .erasedNode
  | openMode _ => .invalidOpenMode
  | pathRefused _ => .pathNotValidated
  | openFailed .. => .openFileFailed
  | abortRequested => .aborted
  | nullSymbol | symbolText _ | breakdown _ => .function

/-- The detail of a cause. The host's callbacks have a single failure status, which is one. -/
def detail : Fault → String
  | tableVersion found expected =>
    "host table version " ++ toString found ++ " does not match " ++ toString expected
  | noTable => "no host callback table installed"
  | nullTable => "null callback table"
  | unknownId id => "no error with id " ++ toString id
  | unknownName name => "no error named " ++ name
  | nameTaken name id => name ++ " is already registered with id " ++ toString id
  | argumentCount count => "argc " ++ toString count
  | argumentSlots count => toString count ++ " arguments but no slots"
  | argumentIndex index count =>
    "index " ++ toString index ++ " out of range [0, " ++ toString count ++ ")"
  | containerArgument _ cause => cause
  | resultText => "string result contains NUL"
  | emptyArray .tensor => "tensor container is empty"
  | emptyArray .numericArray => "numeric array container is empty"
  | noArrayData _ => "host returned no data"
  | arrayCreation type dims =>
    "type " ++ type.name ++ ", dims " ++ listText dims ++ ", status 1"
  | arrayCopy _ => "status 1"
  | tensorElement requested found =>
    "requested " ++ requested.name ++ ", tensor holds " ++
      match found with
      | some t => "Some(" ++ t.name ++ ")"
      | none => "None"
  | numericElement requested found =>
    "requested " ++ requested.name ++ ", array holds " ++ found.name
  | elementCount _ given present =>
    toString given ++ " values for " ++ toString present ++ " elements"
  | position _ _ coordinates dims =>
    "position " ++ listText coordinates ++ " in " ++ listText dims
  | conversion target => "Conversion to type " ++ target.name ++ " failed."
  | packetEncoding text => text
  | packetRefused => "status 1"
  | packetProcessing => "status 1"
  | noLink => ""
  | nullNode => ""
  | nodeKind found requested => "node holds " ++ found.name ++ ", requested " ++ requested
  | nodeWithoutValue found => "node kind " ++ found.name
  | nodeData => "status 1"
  | nullCollection => ""
  | nodeName name => "node name " ++ quoted name ++ " contains NUL"
  | nodeText => "string value contains NUL"
  | collectionCreation => "host returned no collection"
  | collectionCopy => "host returned no copy"
  | nullSlot kind => kind.name ++ " slot"
  | erasedNode => ""
  | openMode mode => mode
  | pathRefused path => path
  | openFailed path reason => path ++ ": " ++ reason
  | abortRequested => ""
  | nullSymbol => "null symbol"
  | symbolText fault => fault.message
  | breakdown text => text

end Fault

end Marshal
