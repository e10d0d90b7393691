/-!
# `Error.Kind` — the kinds of errors

An error kind is a name, a fixed message and a number. The built-in kinds are known beforehand and
have the numbers from seven downwards in the order of `Builtin.all`; the number of `noError` is
zero, so that a status of zero means success.

## Contents

* `Builtin` — the built-in kinds, with their names and messages;
* `ErrorKind` — a kind under its number.
-/

namespace Marshal

/-- The kinds that every registry starts with. -/
inductive Builtin
  | version
  | function
  | memory
  | numerical
  | dimensions
  | rank
  | type
  | noError
  | libraryData
  | argumentIndex
  | argumentNumericArray
  | argumentTensor
  | argumentDataList
  | unknownId
  | unknownName
  | nameTaken
  | numericArrayInit
  | numericArrayNew
  | numericArrayClone
  | numericArrayType
  | numericArraySize
  | numericArrayIndex
  | numericArrayConversion
  | tensorInit
  | tensorNew
  | tensorClone
  | tensorType
  | tensorSize
  | tensorIndex
  | linkEncode
  | linkPutPacket
  | linkProcess
  | linkNotAvailable
  | nullNode
  | invalidNodeType
  | nodeData
  | nullCollection
  | pushBackType
  | collectionCreate
  | collectionClone
  | nullSlot
  | erasedNode
  | invalidOpenMode
  | pathNotValidated
  | openFileFailed
  | aborted
  deriving DecidableEq, Repr, Inhabited

namespace Builtin

/-- The built-in kinds in the order of their numbers. -/
def all : List Builtin :=
  [version, function, memory, numerical, dimensions, rank, type, noError, libraryData,
    argumentIndex, argumentNumericArray, argumentTensor, argumentDataList, unknownId,
    unknownName, nameTaken, numericArrayInit, numericArrayNew, numericArrayClone,
    numericArrayType, numericArraySize, numericArrayIndex, numericArrayConversion, tensorInit,
    tensorNew, tensorClone, tensorType, tensorSize, tensorIndex, linkEncode, linkPutPacket,
    linkProcess, linkNotAvailable, nullNode, invalidNodeType, nodeData, nullCollection,
    pushBackType, collectionCreate, collectionClone, nullSlot, erasedNode, invalidOpenMode,
    pathNotValidated, openFileFailed, aborted]

/-- Every built-in kind is listed. -/
theorem mem_all (b : Builtin) : b ∈ all := by cases b <;> decide

/-- The name of a kind. -/
def name : Builtin → String
  | version => "VersionError"
  | function => "FunctionError"
  | memory => "MemoryError"
  | numerical => "NumericalError"
  | dimensions => "DimensionsError"
  | rank => "RankError"
  | type => "TypeError"
  | noError => "NoError"
  | libraryData => "LibDataError"
  | argumentIndex => "ArgumentIndexError"
  | argumentNumericArray => "ArgumentNumericArrayError"
  | argumentTensor => "ArgumentTensorError"
  | argumentDataList => "ArgumentDataListError"
  | unknownId => "ErrorManagerThrowIdError"
  | unknownName => "ErrorManagerThrowNameError"
  | nameTaken => "ErrorManagerCreateNameError"
  | numericArrayInit => "NumericArrayInitError"
  | numericArrayNew => "NumericArrayNewError"
  | numericArrayClone => "NumericArrayCloneError"
  | numericArrayType => "NumericArrayTypeError"
  | numericArraySize => "NumericArraySizeError"
  | numericArrayIndex => "NumericArrayIndexError"
  | numericArrayConversion => "NumericArrayConversionError"
  | tensorInit => "TensorInitError"
  | tensorNew => "TensorNewError"
  | tensorClone => "TensorCloneError"
  | tensorType => "TensorTypeError"
  | tensorSize => "TensorSizeError"
  | tensorIndex => "TensorIndexError"
  | linkEncode => "LinkEncodeError"
  | linkPutPacket => "LinkPutPacketError"
  | linkProcess => "LinkProcessError"
  | linkNotAvailable => "LinkNotAvailableError"
  | nullNode => "DLNullRawNode"
  | invalidNodeType => "DLInvalidNodeType"
  | nodeData => "DLGetNodeDataError"
  | nullCollection => "DLNullRawDataStore"
  | pushBackType => "DLPushBackTypeError"
  | collectionCreate => "DLCreateError"
  | collectionClone => "DLCloneError"
  | nullSlot => "ArgumentCreateNull"
  | erasedNode => "ArgumentAddNodeMArgument"
  | invalidOpenMode => "InvalidOpenMode"
  | pathNotValidated => "PathNotValidated"
  | openFileFailed => "OpenFileFailed"
  | aborted => "Aborted"

/-- The message of a kind. -/
def message : Builtin → String
  | version =>
    "An error was caused by an incompatible function call. The library was compiled with a " ++
      "previous host library version."
  | function => "An error occurred in the library function."
  | memory => "An error was caused by failed memory allocation or insufficient memory."
  | numerical => "A numerical error was encountered."
  | dimensions => "An error caused by inconsistent dimensions or by exceeding array bounds."
  | rank => "An error was caused by a tensor with an inconsistent rank."
  | type => "An error caused by inconsistent types was encountered."
  | noError => "No errors occurred."
  | libraryData => "Library data is not set."
  | argumentIndex => "An error was caused by an incorrect argument index."
  | argumentNumericArray => "An error was caused by a NumericArray argument."
  | argumentTensor => "An error was caused by a Tensor argument."
  | argumentDataList => "An error was caused by a DataStore argument."
  | unknownId => "An exception was thrown with a non-existent id."
  | unknownName => "An exception was thrown with a non-existent name."
  | nameTaken => "An exception was registered with a name that already exists."
  | numericArrayInit => "Failed to construct NumericArray."
  | numericArrayNew => "Failed to create a new NumericArray."
  | numericArrayClone => "Failed to clone NumericArray."
  | numericArrayType => "An error was caused by a NumericArray type mismatch."
  | numericArraySize => "An error was caused by an incorrect NumericArray size."
  | numericArrayIndex =>
    "An error was caused by attempting to access a nonexistent NumericArray element."
  | numericArrayConversion => "Failed to convert NumericArray from different type."
  | tensorInit => "Failed to construct Tensor."
  | tensorNew => "Failed to create a new MTensor."
  | tensorClone => "Failed to clone MTensor."
  | tensorType => "An error was caused by an MTensor type mismatch."
  | tensorSize => "An error was caused by an incorrect Tensor size."
  | tensorIndex => "An error was caused by attempting to access a nonexistent Tensor element."
  | linkEncode => "Could not encode an expression for the link."
  | linkPutPacket => "Could not send a packet over the link."
  | linkProcess => "The host failed to process a packet sent over the link."
  | linkNotAvailable => "No link to the host is available."
  | nullNode => "DataStoreNode passed to Node wrapper was null"
  | invalidNodeType => "DataStoreNode passed to Node wrapper carries data of invalid type"
  | nodeData => "DataStoreNode_getData failed"
  | nullCollection => "DataStore passed to DataList was null"
  | pushBackType => "Element to be added to the DataList has incorrect type"
  | collectionCreate => "Failed to create a new DataStore"
  | collectionClone => "Failed to copy DataStore"
  | nullSlot => "Trying to create Argument object from nullptr"
  | erasedNode => "Trying to add DataStore Node of type MArgument (aka MType_Undef)"
  | invalidOpenMode => "Specified open mode is invalid."
  | pathNotValidated => "File path could not be validated under desired open mode."
  | openFileFailed => "Could not open file."
  | aborted => "Computation aborted by the user."

end Builtin

/-- A kind under its number. -/
structure ErrorKind where
  id : Int
  name : String
  message : String
  deriving DecidableEq, Repr, Inhabited

end Marshal
