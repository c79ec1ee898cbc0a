import SpokenCommand.Json.Token
/-!
JSON text to a value.

The tokens are read once from left to right, with the containers that are part way through in a list
of frames, innermost first.  The reader either waits for a value or holds one that it has to put
into the innermost container; one token decides each step, so nesting costs no more than length.
-/

namespace SpokenCommand.Json

/-- A container part way through: what it holds already, the latest first. -/
inductive Frame where
  | array (items : List Value)
  | /-- The members before the one whose key was read last. -/
    object (members : List (List Piece × Value)) (key : List Piece)

/-- The rest of the tokens, read inside the containers `frames`, where `held` is the value that was
    completed last and is not yet put anywhere. -/
def readFrom (frames : List Frame) (held : Option Value) : List Token → Option Value
  | [] =>
    match frames with
    | [] => held
    | _ => none
  | .beginObject :: .endObject :: rest =>
    match held with
    | none => readFrom frames (some (.object [])) rest
    | some _ => none
  | .beginObject :: .string key :: .colon :: rest =>
    match held with
    | none => readFrom (.object [] key :: frames) none rest
    | some _ => none
  | .beginArray :: rest =>
    match held, rest with
    | none, .endArray :: rest => readFrom frames (some (.array [])) rest
    | none, rest => readFrom (.array [] :: frames) none rest
    | some _, _ => none
  | .comma :: .string key :: .colon :: rest =>
    match held, frames with
    | some value, .object members k :: frames =>
      readFrom (.object ((k, value) :: members) key :: frames) none rest
    | _, _ => none
  | .comma :: rest =>
    match held, frames with
    | some value, .array items :: frames => readFrom (.array (value :: items) :: frames) none rest
    | _, _ => none
  | .endArray :: rest =>
    match held, frames with
    | some value, .array items :: frames =>
      readFrom frames (some (.array (value :: items).reverse)) rest
    | _, _ => none
  | .endObject :: rest =>
    match held, frames with
    | some value, .object members k :: frames =>
      readFrom frames (some (.object ((k, value) :: members).reverse)) rest
    | _, _ => none
  | .null :: rest =>
    match held with
    | none => readFrom frames (some .null) rest
    | some _ => none
  | .bool b :: rest =>
    match held with
    | none => readFrom frames (some (.bool b)) rest
    | some _ => none
  | .string pieces :: rest =>
    match held with
    | none => readFrom frames (some (.string pieces)) rest
    | some _ => none
  | .number n :: rest =>
    match held with
    | none => readFrom frames (some (.number n)) rest
    | some _ => none
  | _ => none

/-- The value of a JSON text; none when the text is not one JSON value. -/
def read (text : String) : Option Value :=
  match tokens text with
  | none => none
  | some tokens => readFrom [] none tokens

end SpokenCommand.Json
