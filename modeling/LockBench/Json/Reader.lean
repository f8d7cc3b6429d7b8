import LockBench.Json.Token

/-!
# Reading JSON

A document is one value.  Its tokens drive a machine whose stack holds the
arrays and objects that are still open, so nesting has no limit.
-/

namespace LockBench
namespace Json

/-- An array or object that is still open, its contents in reverse. -/
inductive Frame
  | array (items : List Value)
  | object (entries : List (Option String × Value)) (key : Option String)
  deriving Repr

/-- What the machine waits for. -/
inductive Awaiting
  /-- A value. -/
  | value
  /-- The first item of an array, or its end. -/
  | firstItem
  /-- The first key of an object, or its end. -/
  | firstKey (entries : List (Option String × Value))
  /-- A key after a comma. -/
  | key (entries : List (Option String × Value))
  /-- The colon after a key. -/
  | colon (entries : List (Option String × Value)) (key : Option String)
  /-- A comma or the end of what is open, after a value. -/
  | separator (last : Value)
  deriving Repr

/-- The machine between two tokens. -/
structure Parse where
  /-- What is open, innermost first. -/
  stack : List Frame
  /-- What the next token must be. -/
  awaiting : Awaiting
  deriving Repr

namespace Parse

/-- The machine before the first token. -/
def initial : Parse := ⟨[], .value⟩

/-- A token where a value is due. -/
def value?
    (stack : List Frame) : Token -> Option Parse
  | .scalar value => some ⟨stack, .separator value⟩
  | .beginArray => some ⟨.array [] :: stack, .firstItem⟩
  | .beginObject => some ⟨stack, .firstKey []⟩
  | _ => none

/-- A token where a key is due. -/
def key?
    (stack : List Frame)
    (entries : List (Option String × Value)) : Token -> Option Parse
  | .scalar (.text key) => some ⟨stack, .colon entries key⟩
  | _ => none

/-- One token. -/
def step? : Parse -> Token -> Option Parse
  | ⟨stack, .value⟩, token => value? stack token
  | ⟨.array items :: stack, .firstItem⟩, .endArray =>
    some ⟨stack, .separator (.array items.reverse)⟩
  | ⟨stack, .firstItem⟩, token => value? stack token
  | ⟨stack, .firstKey entries⟩, .endObject =>
    some ⟨stack, .separator (.object entries.reverse)⟩
  | ⟨stack, .firstKey entries⟩, token => key? stack entries token
  | ⟨stack, .key entries⟩, token => key? stack entries token
  | ⟨stack, .colon entries key⟩, .colon =>
    some ⟨.object entries key :: stack, .value⟩
  | ⟨.array items :: stack, .separator last⟩, .comma =>
    some ⟨.array (last :: items) :: stack, .value⟩
  | ⟨.array items :: stack, .separator last⟩, .endArray =>
    some ⟨stack, .separator (.array (last :: items).reverse)⟩
  | ⟨.object entries key :: stack, .separator last⟩, .comma =>
    some ⟨stack, .key ((key, last) :: entries)⟩
  | ⟨.object entries key :: stack, .separator last⟩, .endObject =>
    some ⟨stack, .separator (.object ((key, last) :: entries).reverse)⟩
  | _, _ => none

/-- The value of a finished document. -/
def result? : Parse -> Option Value
  | ⟨[], .separator value⟩ => some value
  | _ => none

end Parse

/-- The value that a document holds, or `none` when it is no JSON. -/
def Value.ofText? (document : String) : Option Value :=
  match tokensFrom? .between document.toList with
  | none => none
  | some tokens => (tokens.foldlM Parse.step? .initial).bind Parse.result?

end Json
end LockBench
