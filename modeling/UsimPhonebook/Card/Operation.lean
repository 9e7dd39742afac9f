import UsimPhonebook.FileId

/-! # Card operations and their failures

The four operations that a card offers on its files, and the causes for which it refuses one.
-/

namespace UsimPhonebook

/-- What a request asks of a file. -/
inductive Operation
  | readAll
  | readSubset
  | write
  | size
  deriving DecidableEq, Repr

def Operation.name : Operation → String
  | readAll => "ReadAll"
  | readSubset => "ReadSubset"
  | write => "Write"
  | size => "Size"

inductive TransportError
  /-- the request met a fault that was pending for its operation and file -/
  | injected (op : Operation) (file : FileId)
  | fileNotFound (file : FileId)
  | lengthMismatch
  | recordOutOfRange (number : Nat)
  /-- nobody answered the request -/
  | dropped
  /-- a cause in the words of whoever answered -/
  | reported (text : Text)
  deriving DecidableEq, Repr

def TransportError.message : TransportError → String
  | injected op file => "injected " ++ op.name ++ " failure on " ++ String.ofList file.text
  | fileNotFound file => "file " ++ String.ofList file.text ++ " not found"
  | lengthMismatch => "record length mismatch"
  | recordOutOfRange number => s!"record {number} out of range"
  | dropped => "request dropped"
  | reported text => String.ofList text

end UsimPhonebook
