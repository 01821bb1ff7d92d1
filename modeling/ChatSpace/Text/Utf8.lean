import ChatSpace.Text.Bytes

namespace ChatSpace.Utf8

def encode (text : String) : Bytes :=
  text.toList.flatMap String.utf8EncodeChar

theorem encode_append (s t : String) : encode (s ++ t) = encode s ++ encode t := by
  simp [encode]

theorem encode_cons (c : Char) (chars : List Char) :
    encode (String.ofList (c :: chars)) =
      String.utf8EncodeChar c ++ encode (String.ofList chars) := by
  simp [encode]

structure Pending where
  read : Nat
  owed : Nat
  low : UInt8
  high : UInt8
  value : Nat
deriving DecidableEq, Repr

inductive Lead where
  | ascii
  | opens (pending : Pending)
  | refused
deriving DecidableEq, Repr

/-- What an octet starts. The ranges of the second octet leave out the longer spellings of a shorter
character, the surrogates, and the numbers above the last character. -/
def lead (b : UInt8) : Lead :=
  if b < 0x80 then .ascii
  else if b < 0xC2 then .refused
  else if b < 0xE0 then .opens ⟨1, 1, 0x80, 0xBF, b.toNat - 0xC0⟩
  else if b = 0xE0 then .opens ⟨1, 2, 0xA0, 0xBF, 0⟩
  else if b = 0xED then .opens ⟨1, 2, 0x80, 0x9F, 0xD⟩
  else if b < 0xF0 then .opens ⟨1, 2, 0x80, 0xBF, b.toNat - 0xE0⟩
  else if b = 0xF0 then .opens ⟨1, 3, 0x90, 0xBF, 0⟩
  else if b < 0xF4 then .opens ⟨1, 3, 0x80, 0xBF, b.toNat - 0xF0⟩
  else if b = 0xF4 then .opens ⟨1, 3, 0x80, 0x8F, 4⟩
  else .refused

def Pending.accepts (p : Pending) (b : UInt8) : Bool :=
  p.low ≤ b && b ≤ p.high

inductive Advance where
  | complete (c : Char)
  | more (pending : Pending)
deriving DecidableEq, Repr

def Pending.advance (p : Pending) (b : UInt8) : Advance :=
  let value := p.value * 64 + (b.toNat - 0x80)
  if p.owed ≤ 1 then .complete (Char.ofNat value)
  else .more ⟨p.read + 1, p.owed - 1, 0x80, 0xBF, value⟩

def replacement : Char := '\uFFFD'

structure Decoder where
  done : List Char
  pending : Option Pending
deriving DecidableEq, Repr

def Decoder.start (d : Decoder) (b : UInt8) : Decoder :=
  match lead b with
  | .ascii => ⟨Char.ofNat b.toNat :: d.done, none⟩
  | .opens p => ⟨d.done, some p⟩
  | .refused => ⟨replacement :: d.done, none⟩

def Decoder.step (d : Decoder) (b : UInt8) : Decoder :=
  match d.pending with
  | none => d.start b
  | some p =>
      if p.accepts b then
        match p.advance b with
        | .complete c => ⟨c :: d.done, none⟩
        | .more p => ⟨d.done, some p⟩
      else Decoder.start ⟨replacement :: d.done, none⟩ b

def Decoder.finish (d : Decoder) : List Char :=
  match d.pending with
  | none => d.done.reverse
  | some _ => (replacement :: d.done).reverse

/-- Text with one replacement character for each run of octets that starts no character. -/
def lossy (bytes : Bytes) : String :=
  String.ofList (bytes.foldl Decoder.step ⟨[], none⟩).finish

inductive Fault where
  | invalid (length offset : Nat)
  | incomplete (offset : Nat)
deriving DecidableEq, Repr

def Fault.message : Fault → String
  | .invalid length offset => s!"invalid utf-8 sequence of {length} bytes from index {offset}"
  | .incomplete offset => s!"incomplete utf-8 byte sequence from index {offset}"

def faultFrom (offset : Nat) : Option Pending → Bytes → Option Fault
  | none, [] => none
  | some p, [] => some (.incomplete (offset - p.read))
  | none, b :: rest =>
      match lead b with
      | .ascii => faultFrom (offset + 1) none rest
      | .opens p => faultFrom (offset + 1) (some p) rest
      | .refused => some (.invalid 1 offset)
  | some p, b :: rest =>
      if p.accepts b then
        match p.advance b with
        | .complete _ => faultFrom (offset + 1) none rest
        | .more p => faultFrom (offset + 1) (some p) rest
      else some (.invalid p.read (offset - p.read))

def fault? (bytes : Bytes) : Option Fault :=
  faultFrom 0 none bytes

def decode (bytes : Bytes) : Except Fault String :=
  match fault? bytes with
  | none => .ok (lossy bytes)
  | some fault => .error fault

def isValid (bytes : Bytes) : Bool :=
  (fault? bytes).isNone

inductive Pending.Completes : Pending → Bytes → Char → Prop
  | last {p b c} : p.accepts b → p.advance b = .complete c → Completes p [b] c
  | more {p q b rest c} :
      p.accepts b → p.advance b = .more q → Completes q rest c → Completes p (b :: rest) c

inductive Spells : Bytes → Char → Prop
  | ascii {b} : lead b = .ascii → Spells [b] (Char.ofNat b.toNat)
  | opens {b p rest c} : lead b = .opens p → p.Completes rest c → Spells (b :: rest) c

theorem foldl_step_of_completes {p : Pending} {bytes : Bytes} {c : Char} (h : p.Completes bytes c)
    (done : List Char) : bytes.foldl Decoder.step ⟨done, some p⟩ = ⟨c :: done, none⟩ := by
  induction h with
  | last accepted complete => simp [Decoder.step, accepted, complete]
  | more accepted more _ ih => simpa [Decoder.step, accepted, more] using ih

theorem foldl_step_of_spells {bytes : Bytes} {c : Char} (h : Spells bytes c) (done : List Char) :
    bytes.foldl Decoder.step ⟨done, none⟩ = ⟨c :: done, none⟩ := by
  cases h with
  | ascii h => simp [Decoder.step, Decoder.start, h]
  | opens h completes =>
    simpa [Decoder.step, Decoder.start, h] using foldl_step_of_completes completes done

theorem faultFrom_of_completes {p : Pending} {bytes : Bytes} {c : Char} (h : p.Completes bytes c)
    (offset : Nat) (rest : Bytes) :
    faultFrom offset (some p) (bytes ++ rest) = faultFrom (offset + bytes.length) none rest := by
  induction h generalizing offset with
  | last accepted complete => simp [faultFrom, accepted, complete]
  | more accepted more _ ih => simp [faultFrom, accepted, more, ih, Nat.add_assoc, Nat.add_comm 1]

theorem faultFrom_of_spells {bytes : Bytes} {c : Char} (h : Spells bytes c) (offset : Nat)
    (rest : Bytes) :
    faultFrom offset none (bytes ++ rest) = faultFrom (offset + bytes.length) none rest := by
  cases h with
  | ascii h => simp [faultFrom, h]
  | opens h completes =>
    simp [faultFrom, h, faultFrom_of_completes completes, Nat.add_assoc, Nat.add_comm 1]

theorem lead_ascii : ∀ n < 128, lead (.ofNat n) = .ascii := by decide

theorem lead_two : ∀ n < 32, 2 ≤ n → lead (.ofNat (n + 192)) =
    .opens ⟨1, 1, .ofNat 0x80, .ofNat 0xBF, n⟩ := by
  decide

theorem lead_three : ∀ n < 16, lead (.ofNat (n + 224)) =
    .opens ⟨1, 2, .ofNat (if n = 0 then 0xA0 else 0x80),
      .ofNat (if n = 13 then 0x9F else 0xBF), n⟩ := by
  decide

theorem lead_four : ∀ n < 5, lead (.ofNat (n + 240)) =
    .opens ⟨1, 3, .ofNat (if n = 0 then 0x90 else 0x80),
      .ofNat (if n = 4 then 0x8F else 0xBF), n⟩ := by
  decide

theorem toNat_continuation {m : Nat} (h : m < 64) : (UInt8.ofNat (m + 128)).toNat = m + 128 := by
  rw [UInt8.toNat_ofNat']; omega

theorem accepts_continuation {read owed low high value m : Nat} (h : m < 64)
    (lowest : low ≤ m + 128) (highest : m + 128 ≤ high) (octet : high < 256) :
    Pending.accepts ⟨read, owed, .ofNat low, .ofNat high, value⟩ (.ofNat (m + 128)) = true := by
  simp only [Pending.accepts, UInt8.le_iff_toNat_le, toNat_continuation h, UInt8.toNat_ofNat',
    Bool.and_eq_true, decide_eq_true_eq]
  omega

theorem advance_continuation (p : Pending) {m : Nat} (h : m < 64) :
    p.advance (.ofNat (m + 128)) =
      if p.owed ≤ 1 then .complete (Char.ofNat (p.value * 64 + m))
      else .more ⟨p.read + 1, p.owed - 1, .ofNat 0x80, .ofNat 0xBF, p.value * 64 + m⟩ := by
  simp only [Pending.advance, toNat_continuation h, Nat.add_sub_cancel]
  rfl

theorem completes_one {read low high value m : Nat} {c : Char} (h : m < 64) (lowest : low ≤ m + 128)
    (highest : m + 128 ≤ high) (octet : high < 256) (number : Char.ofNat (value * 64 + m) = c) :
    Pending.Completes ⟨read, 1, .ofNat low, .ofNat high, value⟩ [.ofNat (m + 128)] c :=
  .last (accepts_continuation h lowest highest octet)
    (by rw [advance_continuation _ h]; simp [number])

theorem completes_more {read owed low high value m : Nat} {rest : Bytes} {c : Char} (h : m < 64)
    (lowest : low ≤ m + 128) (highest : m + 128 ≤ high) (octet : high < 256)
    (completes : Pending.Completes
      ⟨read + 1, owed + 1, .ofNat 0x80, .ofNat 0xBF, value * 64 + m⟩ rest c) :
    Pending.Completes ⟨read, owed + 2, .ofNat low, .ofNat high, value⟩
      (.ofNat (m + 128) :: rest) c :=
  .more (accepts_continuation h lowest highest octet)
    (by rw [advance_continuation _ h]; simp) completes

theorem spells_encodeChar (c : Char) : Spells (String.utf8EncodeChar c) c := by
  have same : Char.ofNat c.val.toNat = c := Char.ofNat_toNat c
  have valid : c.val.toNat < 0xD800 ∨ 0xDFFF < c.val.toNat ∧ c.val.toNat < 0x110000 := c.valid
  rw [String.utf8EncodeChar.eq_1]
  generalize c.val.toNat = n at same valid
  split
  · have number : (UInt8.ofNat n).toNat = n := by rw [UInt8.toNat_ofNat']; omega
    have := Spells.ascii (lead_ascii n (by omega))
    rwa [number, same] at this
  split
  · exact .opens (lead_two _ (by omega) (by omega)) <|
      completes_one (by omega) (by omega) (by omega) (by omega) (by rw [← same]; congr 1; omega)
  split
  · exact .opens (lead_three _ (by omega)) <|
      completes_more (by omega) (by split <;> omega) (by split <;> omega) (by split <;> omega) <|
      completes_one (by omega) (by omega) (by omega) (by omega) (by rw [← same]; congr 1; omega)
  · exact .opens (lead_four _ (by omega)) <|
      completes_more (by omega) (by split <;> omega) (by split <;> omega) (by split <;> omega) <|
      completes_more (by omega) (by omega) (by omega) (by omega) <|
      completes_one (by omega) (by omega) (by omega) (by omega) (by rw [← same]; congr 1; omega)

theorem foldl_step_flatMap (text done : List Char) :
    (text.flatMap String.utf8EncodeChar).foldl Decoder.step ⟨done, none⟩ =
      ⟨text.reverse ++ done, none⟩ := by
  induction text generalizing done with
  | nil => rfl
  | cons c rest ih =>
    simp [List.foldl_append, foldl_step_of_spells (spells_encodeChar c), ih]

@[simp] theorem lossy_encode (text : String) : lossy (encode text) = text := by
  simp [lossy, encode, foldl_step_flatMap, Decoder.finish]

theorem faultFrom_flatMap (text : List Char) (offset : Nat) :
    faultFrom offset none (text.flatMap String.utf8EncodeChar) = none := by
  induction text generalizing offset with
  | nil => rfl
  | cons c rest ih => simp [faultFrom_of_spells (spells_encodeChar c), ih]

theorem fault?_encode (text : String) : fault? (encode text) = none :=
  faultFrom_flatMap text.toList 0

@[simp] theorem decode_encode (text : String) : decode (encode text) = .ok text := by
  simp [decode, fault?_encode]

end ChatSpace.Utf8
