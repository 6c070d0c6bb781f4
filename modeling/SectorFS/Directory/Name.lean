import SectorFS.Failure
import SectorFS.Text.Utf8

/-!
File names in their stored form: twelve bytes of UTF-8, filled up with zeros. A name of twelve bytes
has no zero behind it.
-/

namespace SectorFS

abbrev NameField := Vector UInt8 nameLimit

namespace NameField

/-- The stored form of `name`. The separator, zero bytes and the empty name cannot be stored. -/
def ofName (name : String) : Except Error NameField :=
  let chars := name.toList
  let bytes := Text.encodeUtf8 name
  if chars.isEmpty || chars.contains '/' || chars.contains '\x00' then
    .error (.invalidArgument (.fileName name))
  else if nameLimit < bytes.length then .error .nameTooLong
  else .ok (.ofFn fun i => bytes.getD i 0)

/-- The name in a field, which need not have been written by `ofName`. -/
def toName (field : NameField) : String := Text.decodeUtf8 (field.toList.takeWhile (· != 0))

end NameField

end SectorFS
