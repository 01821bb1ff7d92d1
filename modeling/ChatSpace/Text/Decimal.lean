import ChatSpace.Text.Utf8

namespace ChatSpace.Decimal

def isDigit (b : UInt8) : Bool :=
  0x30 ≤ b && b ≤ 0x39

def shift (n : Nat) (d : UInt8) : Nat :=
  n * 10 + (d.toNat - 0x30)

def value (digits : Bytes) : Nat :=
  digits.foldl shift 0

def valueUpTo? (limit : Nat) (digits : Bytes) : Option Nat :=
  digits.foldlM (fun n d => (some (shift n d)).filter (· ≤ limit)) 0

def unsigned? (bytes : Bytes) : Option Nat :=
  if !bytes.isEmpty && bytes.all isDigit then some (value bytes) else none

def unsignedUpTo? (limit : Nat) (bytes : Bytes) : Option Nat :=
  if !bytes.isEmpty && bytes.all isDigit then valueUpTo? limit bytes else none

def signedBy (below above : Bytes → Option Nat) : Bytes → Option Int
  | 0x2B :: digits => (above digits).map Int.ofNat
  | 0x2D :: digits => (below digits).map fun n => -(Int.ofNat n)
  | digits => (above digits).map Int.ofNat

def signed? : Bytes → Option Int :=
  signedBy unsigned? unsigned?

def within? (low high : Int) (text : String) : Option Int :=
  signedBy (unsignedUpTo? (-low).toNat) (unsignedUpTo? high.toNat) (Utf8.encode text)

def int64? (text : String) : Option Int :=
  within? (-0x8000000000000000) 0x7FFFFFFFFFFFFFFF text

def int32? (text : String) : Option Int :=
  within? (-0x80000000) 0x7FFFFFFF text

def digits (n : Nat) : List Char :=
  Nat.toDigits 10 n

def padded (width n : Nat) : List Char :=
  List.replicate (width - (digits n).length) '0' ++ digits n

theorem le_foldl_shift (digits : Bytes) (n : Nat) : n ≤ digits.foldl shift n := by
  induction digits generalizing n with
  | nil => exact Nat.le_refl n
  | cons d digits ih =>
      have hfirst : n ≤ shift n d := by unfold shift; omega
      exact Nat.le_trans hfirst (ih (shift n d))

theorem foldlM_shift {limit n : Nat} (digits : Bytes) (hn : n ≤ limit) :
    digits.foldlM (fun n d => (some (shift n d)).filter (· ≤ limit)) n
      = (some (digits.foldl shift n)).filter (· ≤ limit) := by
  induction digits generalizing n with
  | nil => simp [Option.filter, hn]
  | cons d digits ih =>
      by_cases hd : shift n d ≤ limit
      · rw [List.foldl_cons, ← ih hd, List.foldlM_cons]
        simp [Option.filter, hd]
      · have hlast : ¬ digits.foldl shift (shift n d) ≤ limit := fun h =>
          hd (Nat.le_trans (le_foldl_shift digits _) h)
        simp [List.foldlM_cons, Option.filter, hd, hlast]

theorem unsignedUpTo?_eq (limit : Nat) (bytes : Bytes) :
    unsignedUpTo? limit bytes = (unsigned? bytes).filter (· ≤ limit) := by
  unfold unsignedUpTo? unsigned? valueUpTo? value
  split
  · exact foldlM_shift bytes (Nat.zero_le limit)
  · rfl

theorem filter_map_ofNat (number : Option Nat) {low high : Int} (hlow : low ≤ 0)
    (hhigh : 0 ≤ high) :
    (number.filter (· ≤ high.toNat)).map Int.ofNat
      = (number.map Int.ofNat).filter fun n => low ≤ n && n ≤ high := by
  cases number with
  | none => rfl
  | some n =>
      have hiff : n ≤ high.toNat ↔ low ≤ (n : Int) ∧ (n : Int) ≤ high := by omega
      by_cases hn : n ≤ high.toNat <;> simp [Option.filter, hn, hiff.mp, ← hiff]

theorem filter_map_neg (number : Option Nat) {low high : Int} (hlow : low ≤ 0)
    (hhigh : 0 ≤ high) :
    (number.filter (· ≤ (-low).toNat)).map (fun n => -(Int.ofNat n))
      = (number.map fun n => -(Int.ofNat n)).filter fun n => low ≤ n && n ≤ high := by
  cases number with
  | none => rfl
  | some n =>
      have hiff : n ≤ (-low).toNat ↔ low ≤ -(n : Int) ∧ -(n : Int) ≤ high := by omega
      by_cases hn : n ≤ (-low).toNat <;> simp [Option.filter, hn, ← hiff]

theorem within?_eq {low high : Int} (hlow : low ≤ 0) (hhigh : 0 ≤ high) (text : String) :
    within? low high text
      = (signed? (Utf8.encode text)).filter fun n => low ≤ n && n ≤ high := by
  unfold within? signed? signedBy
  split <;>
    simp only [unsignedUpTo?_eq, filter_map_ofNat _ hlow hhigh, filter_map_neg _ hlow hhigh]

end ChatSpace.Decimal
