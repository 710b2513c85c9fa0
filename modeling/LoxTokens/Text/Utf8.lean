import LoxTokens.Text.Basic

/-!
# Texts as bytes

* `Bytes.text?` decodes a byte string as UTF-8.  It is all or nothing: a byte string that is not
  the encoding of a text has no text at all.
* `Text.bytes` is the encoding, and `text?_bytes` and `bytes_of_text?` say that the two are inverse
  to each other.
* `Bytes.chunks` cuts a byte string after each line feed, the way lines are read from a terminal.
-/

set_option autoImplicit false

namespace LoxTokens

/-- The contents of a file or of the standard input. -/
abbrev Bytes := List UInt8

/-- The UTF-8 encoding of a text. -/
def Text.bytes (t : Text) : Bytes := t.flatMap String.utf8EncodeChar

namespace Bytes

/-- The text of which a byte string is the UTF-8 encoding, if there is one. -/
def text? (b : Bytes) : Option Text := b.toByteArray.utf8Decode?.map Array.toList

theorem text?_bytes (t : Text) : text? t.bytes = some t := by
  have h : (Text.bytes t).toByteArray = t.utf8Encode := rfl
  rw [text?, h, List.utf8Decode?_utf8Encode]
  rfl

theorem bytes_of_text? {b : Bytes} {t : Text} (h : text? b = some t) : t.bytes = b := by
  obtain ⟨a, ha, rfl⟩ := Option.map_eq_some_iff.1 h
  have hs : b.toByteArray.utf8Decode?.isSome = true := by rw [ha]; rfl
  have henc := ByteArray.utf8Encode_get_utf8Decode? (h := hs)
  simp only [ha, Option.get_some] at henc
  have hb : (Text.bytes a.toList).toByteArray = b.toByteArray := henc
  simpa using congrArg (fun x : ByteArray ↦ x.data.toList) hb

/-- A byte string is the encoding of at most one text. -/
theorem text?_eq_some_iff {b : Bytes} {t : Text} : text? b = some t ↔ t.bytes = b :=
  ⟨bytes_of_text?, fun h ↦ h ▸ text?_bytes t⟩

/-! ## Chunks -/

/-- The byte of a line feed. -/
def lineFeed : UInt8 := 10

/-- Puts a byte in front of the first chunk, or of a chunk of its own if it ends one. -/
def consChunk (x : UInt8) : List Bytes → List Bytes
  | [] => [[x]]
  | c :: cs => if x = lineFeed then [x] :: c :: cs else (x :: c) :: cs

/-- The byte string cut after each line feed.  Only the last chunk may lack one, and no chunk is
empty. -/
def chunks : Bytes → List Bytes
  | [] => []
  | x :: b => consChunk x (chunks b)

theorem flatten_consChunk (x : UInt8) (cs : List Bytes) :
    (consChunk x cs).flatten = x :: cs.flatten := by
  cases cs with
  | nil => rfl
  | cons c cs => simp only [consChunk]; split <;> simp

/-- Cutting a byte string into chunks loses nothing. -/
theorem flatten_chunks (b : Bytes) : (chunks b).flatten = b := by
  induction b with
  | nil => rfl
  | cons x b ih => rw [chunks, flatten_consChunk, ih]

end Bytes
end LoxTokens
