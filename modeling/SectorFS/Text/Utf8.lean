/-!
Text and its UTF-8 bytes. Any bytes can be read as text: each longest start of a character that
breaks off becomes one replacement character.
-/

namespace SectorFS.Text

def encodeUtf8 (text : String) : List UInt8 :=
  text.toList.flatMap String.utf8EncodeChar

/-- Stands for bytes that are no character. -/
def replacement : Char := '\ufffd'

def isContinuation (b : UInt8) : Bool := 0x80 ≤ b && b ≤ 0xbf

/-- Whether some character of three or four bytes starts with `lead` and `second`. The bounds leave
out spellings that are longer than needed, the surrogates, and all past the last code point. -/
def opensLong (lead second : UInt8) : Bool :=
  if lead = 0xe0 then 0xa0 ≤ second && second ≤ 0xbf
  else if lead = 0xed then 0x80 ≤ second && second ≤ 0x9f
  else if lead = 0xf0 then 0x90 ≤ second && second ≤ 0xbf
  else if lead = 0xf4 then 0x80 ≤ second && second ≤ 0x8f
  else 0xe1 ≤ lead && lead ≤ 0xf3 && isContinuation second

/-- How many of the bytes after `lead` still belong to the character that it opens, when the bytes
do not make up a whole one. -/
def brokenTail (lead : UInt8) : List UInt8 → Nat
  | second :: third :: _ =>
    if opensLong lead second then
      if 0xf0 ≤ lead && isContinuation third then 2 else 1
    else 0
  | [second] => if opensLong lead second then 1 else 0
  | [] => 0

/-- The bytes as characters, broken ones replaced. -/
def decodeChars : List UInt8 → List Char
  | [] => []
  | lead :: rest =>
    match (lead :: rest).toByteArray.utf8DecodeChar? 0 with
    | some c => c :: decodeChars (rest.drop (c.utf8Size - 1))
    | none => replacement :: decodeChars (rest.drop (brokenTail lead rest))
  termination_by bytes => bytes.length

def decodeUtf8 (bytes : List UInt8) : String :=
  String.ofList (decodeChars bytes)

end SectorFS.Text
