
namespace ChatSpace

abbrev Bytes := List UInt8

namespace Bytes

def newline : UInt8 := 10

def space : UInt8 := 32

/-- Space, tab, line feed, form feed and carriage return. The vertical tab is not one of them. -/
def isBlank (b : UInt8) : Bool :=
  b = 32 || b = 9 || b = 10 || b = 12 || b = 13

def trim (bytes : Bytes) : Bytes :=
  ((bytes.dropWhile isBlank).reverse.dropWhile isBlank).reverse

def after? (lead bytes : Bytes) : Option Bytes :=
  if lead.isPrefixOf bytes then some (bytes.drop lead.length) else none

theorem after?_append (lead rest : Bytes) : after? lead (lead ++ rest) = some rest := by
  have h : lead.isPrefixOf (lead ++ rest) = true := by
    rw [List.isPrefixOf_iff_prefix]; exact List.prefix_append lead rest
  simp [after?, h]

theorem eq_append_of_after? {lead bytes rest : Bytes} (h : after? lead bytes = some rest) :
    bytes = lead ++ rest := by
  unfold after? at h
  split at h
  · next hp =>
    rw [List.isPrefixOf_iff_prefix] at hp
    obtain ⟨tail, rfl⟩ := hp
    simp_all
  · cases h

def le : Bytes → Bytes → Bool
  | [], _ => true
  | _ :: _, [] => false
  | a :: as, b :: bs => a < b || (a = b && le as bs)

end Bytes

end ChatSpace
