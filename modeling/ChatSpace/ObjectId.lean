import ChatSpace.Text.Hex
import ChatSpace.Text.Utf8

namespace ChatSpace

structure ObjectId where
  bytes : Bytes
  length_bytes : bytes.length = 20
deriving DecidableEq, Repr

inductive ObjectIdError where
  | invalidLength (length : Nat)
  | invalidCharacters (text : String)
deriving DecidableEq, Repr

def ObjectIdError.message : ObjectIdError → String
  | .invalidLength length => s!"invalid object ID length: {length}"
  | .invalidCharacters text => s!"invalid object ID characters: {text}"

namespace ObjectId

theorem ext_bytes {a b : ObjectId} (h : a.bytes = b.bytes) : a = b := by
  cases a; cases b; simp_all

def zero : ObjectId :=
  ⟨List.replicate 20 0, by simp⟩

instance : Inhabited ObjectId := ⟨zero⟩

def ofHex (digits : Bytes) : Except ObjectIdError ObjectId :=
  if hl : digits.length = 40 then
    match hd : Hex.decode digits with
    | some bytes => .ok ⟨bytes, by have := Hex.length_of_decode hd; omega⟩
    | none => .error (.invalidCharacters (Utf8.lossy digits))
  else .error (.invalidLength digits.length)

def encode (id : ObjectId) : Bytes :=
  Hex.encode id.bytes

def hex (id : ObjectId) : String :=
  Hex.text id.bytes

def short (id : ObjectId) : String :=
  String.ofList (id.hex.toList.take 7)

def shown (id : ObjectId) (abbreviated : Bool) : String :=
  if abbreviated then id.short else id.hex

theorem ofHex_eq_ok_iff {digits : Bytes} {id : ObjectId} :
    ofHex digits = .ok id ↔ Hex.decode digits = some id.bytes := by
  constructor
  · intro h
    unfold ofHex at h
    split at h
    · split at h
      · next bytes hd => cases h; exact hd
      · cases h
    · cases h
  · intro h
    have hlen := Hex.length_of_decode h
    have hid := id.length_bytes
    unfold ofHex
    split
    · split
      · next bytes hd =>
        rw [h] at hd
        cases hd
        rfl
      · next hd => rw [h] at hd; cases hd
    · next hne => omega

theorem ofHex_encode (id : ObjectId) : ofHex id.encode = .ok id :=
  ofHex_eq_ok_iff.mpr (Hex.decode_encode id.bytes)

def le (a b : ObjectId) : Bool :=
  Bytes.le a.bytes b.bytes

def dropRepeats : List ObjectId → List ObjectId
  | [] => []
  | [a] => [a]
  | a :: b :: rest => if a = b then dropRepeats (b :: rest) else a :: dropRepeats (b :: rest)

def sortDistinct (ids : List ObjectId) : List ObjectId :=
  dropRepeats (ids.mergeSort le)

end ObjectId

end ChatSpace
