import IdMint.BigEndian
import IdMint.Calendar.Moment
import IdMint.MintError
import IdMint.Text.Hex

/-!
# Object ids

An object id is twelve bytes: four of seconds since 1970, five that are the same for all ids of one
process, and three of a counter, each number with its most significant byte first. Ids are ordered
as their bytes are, one after the other. The text of an id is its twenty-four hexadecimal digits,
and only such a text, in either case, is read as an id.
-/

namespace IdMint

open Text (Shape)

/-- An id of twelve bytes. -/
structure ObjectId where
  bytes : List UInt8
  length_bytes : bytes.length = 12
  deriving DecidableEq, Repr

namespace ObjectId

instance : Inhabited ObjectId := ⟨{ bytes := List.replicate 12 0, length_bytes := rfl }⟩

/-- The id with these bytes, if there are twelve. -/
def ofBytes? (bytes : List UInt8) : Option ObjectId :=
  if h : bytes.length = 12 then some { bytes, length_bytes := h } else none

/-! ## Parts -/

/-- The seconds since 1970 that an id shows. -/
def issuedSecs (id : ObjectId) : UInt32 := UInt32.ofNat (BigEndian.value (id.bytes.take 4))

/-- The start of the second that an id shows. -/
def moment? (id : ObjectId) : Option Calendar.Moment :=
  Calendar.Moment.ofMs? (id.issuedSecs.toNat * 1000)

/-- The bytes that an id shares with all others of its process. -/
def process (id : ObjectId) : List UInt8 := (id.bytes.drop 4).take 5

def counter (id : ObjectId) : UInt32 := UInt32.ofNat (BigEndian.value (id.bytes.drop 9))

/-! ## Order -/

/-- Ids compare as their bytes do, the first difference deciding. -/
instance : Ord ObjectId where
  compare a b := List.compareLex compare a.bytes b.bytes

/-- Ids in order, equal ones side by side. -/
def sort (ids : List ObjectId) : List ObjectId :=
  ids.mergeSort fun a b => (compare a b).isLE

/-! ## Text -/

/-- The twenty-four digits of an id. -/
def hex (id : ObjectId) : String := String.ofList (Text.Hex.encode id.bytes)

def ofText (text : String) : Except MintError ObjectId :=
  match (Text.Hex.decode? text.toList).bind ofBytes? with
  | some id => .ok id
  | none => .error (.invalidObjectId text)

/-- An id as it is shown: its bytes, as numbers. -/
def shape (id : ObjectId) : Shape := .tuple "ObjectId" [.list (id.bytes.map .text)]

theorem ofText_hex (id : ObjectId) : ofText id.hex = .ok id := by
  obtain ⟨bytes, h⟩ := id
  simp [ofText, hex, Text.Hex.decode?_encode, ofBytes?, h]

end ObjectId
end IdMint
