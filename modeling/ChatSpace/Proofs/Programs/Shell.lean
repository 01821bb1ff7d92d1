import ChatSpace.Programs.Shell
import ChatSpace.Proofs.Text.Ascii

namespace ChatSpace

namespace ShellWord

def bareFrom (r : Reader) : List Char → List Char
  | [] => []
  | c :: rest =>
      if r.mode = .plain ∧ c ≠ '\'' ∧ c ≠ '\\' then c :: bareFrom (r.step c) rest
      else bareFrom (r.step c) rest

def bare (text : String) : List Char :=
  bareFrom ⟨.plain, [], none⟩ text.toList

def active : List Char :=
  "|&;<>()$`\"*?[]#~=%!{}^,-\t\n".toList

theorem bareFrom_append (r : Reader) (front back : List Char) :
    bareFrom r (front ++ back) = bareFrom r front ++ bareFrom (front.foldl Reader.step r) back := by
  induction front generalizing r with
  | nil => rfl
  | cons c front ih =>
      simp only [List.cons_append, bareFrom, ih, List.foldl_cons]
      split <;> rfl

theorem bareFrom_quoteChar (word : List Char) (words : List (List Char)) (start : List Char) :
    bareFrom ⟨.quoted, words, some start⟩ (word.flatMap quoteChar) = [] := by
  induction word generalizing start with
  | nil => rfl
  | cons c word ih =>
      by_cases hc : c = '\''
      · subst hc
        simp [quoteChar, bareFrom, Reader.step, Reader.add, ih]
      · simp [quoteChar, hc, bareFrom, Reader.step, Reader.add, ih]

theorem bareFrom_quoteChars (word : List Char) (words : List (List Char)) :
    bareFrom ⟨.plain, words, none⟩ (quoteChars word) = [] := by
  have hinner := bareFrom_quoteChar word words []
  have hfold := foldl_quoteChar word words []
  simp [quoteChars, bareFrom, bareFrom_append, Reader.step, hinner, hfold]

theorem bareFrom_spaced (rest : List (List Char)) (word : List Char) (words : List (List Char)) :
    bareFrom ⟨.plain, words, some word.reverse⟩ (rest.flatMap fun w => ' ' :: quoteChars w) =
      List.replicate rest.length ' ' := by
  induction rest generalizing word words with
  | nil => rfl
  | cons next rest ih =>
      have hstep : Reader.step ⟨.plain, words, some word.reverse⟩ ' ' =
          ⟨.plain, word :: words, none⟩ := by
        simp [Reader.step, isSeparator, Reader.endWord]
      simp [bareFrom, bareFrom_append, hstep, bareFrom_quoteChars, foldl_quoteChars, ih,
        List.replicate_succ]

theorem bare_line (words : List String) :
    bare (line words) = List.replicate (words.length - 1) ' ' := by
  cases words with
  | nil => rfl
  | cons word rest =>
      simp only [bare, line, joinChars, List.map_cons, String.toList_ofList, bareFrom_append,
        bareFrom_quoteChars, foldl_quoteChars, List.nil_append]
      simp [bareFrom_spaced]

theorem not_mem_bare_line {c : Char} (hc : c ∈ active) (words : List String) :
    c ∉ bare (line words) := by
  rw [bare_line]
  intro hmem
  obtain rfl := List.eq_of_mem_replicate hmem
  exact absurd hc (by decide)

end ShellWord

namespace Programs.Shell

open Processes

def octets (chars : List Char) : Bytes :=
  chars.flatMap String.utf8EncodeChar

theorem octets_cons (c : Char) (chars : List Char) :
    octets (c :: chars) = String.utf8EncodeChar c ++ octets chars :=
  rfl

theorem octets_append (front back : List Char) :
    octets (front ++ back) = octets front ++ octets back :=
  List.flatMap_append

theorem quote_not_mem_encodeChar {c : Char} (hc : c ≠ '\'') :
    0x27 ∉ String.utf8EncodeChar c := by
  intro hmem
  exact hc (Utf8.eq_of_mem_encodeChar hmem (by decide))

section Scanner

variable (scope : Scope) (tokens : List Token)

theorem foldl_single {bytes : Bytes} (h : 0x27 ∉ bytes) (start : Bytes) :
    bytes.foldl (Scanner.step scope) { mode := .single, tokens, word := some start } =
      { mode := .single, tokens, word := some (bytes.reverse ++ start) } := by
  induction bytes generalizing start with
  | nil => rfl
  | cons b bytes ih =>
      rw [List.mem_cons, not_or] at h
      have hstep : Scanner.step scope { mode := .single, tokens, word := some start } b =
          { mode := .single, tokens, word := some (b :: start) } := by
        simp [Scanner.step, Scanner.enter, Ne.symm h.1, Scanner.add]
      rw [List.foldl_cons, hstep, ih h.2]
      simp

theorem foldl_quoteChar (word : List Char) (start : Bytes) :
    (octets (word.flatMap ShellWord.quoteChar)).foldl (Scanner.step scope)
        { mode := .single, tokens, word := some start } =
      { mode := .single, tokens, word := some ((octets word).reverse ++ start) } := by
  induction word generalizing start with
  | nil => rfl
  | cons c word ih =>
      rw [List.flatMap_cons, octets_append, List.foldl_append, octets_cons, List.reverse_append,
        List.append_assoc, ← ih]
      congr 1
      by_cases hc : c = '\''
      · subst hc
        rfl
      · have hlone : octets (ShellWord.quoteChar c) = String.utf8EncodeChar c := by
          simp [ShellWord.quoteChar, hc, octets]
        rw [hlone, foldl_single scope tokens (quote_not_mem_encodeChar hc)]

theorem foldl_quoteChars (word : List Char) :
    (octets (ShellWord.quoteChars word)).foldl (Scanner.step scope) { tokens } =
      { tokens, word := some (octets word).reverse } := by
  have hopen : (String.utf8EncodeChar '\'').foldl (Scanner.step scope) { tokens } =
      { mode := .single, tokens, word := some [] } := rfl
  rw [ShellWord.quoteChars, octets_append, octets_cons, List.foldl_append, List.foldl_append,
    hopen, foldl_quoteChar, List.append_nil]
  rfl

theorem foldl_spaced (rest : List (List Char)) (word : List Char) :
    ((octets (rest.flatMap fun w => ' ' :: ShellWord.quoteChars w)).foldl (Scanner.step scope)
        { tokens, word := some (octets word).reverse }) =
      { tokens := ((word :: rest).dropLast.map fun w => .word (octets w)).reverse ++ tokens
        word := some (octets ((word :: rest).getLast (by simp))).reverse } := by
  induction rest generalizing word tokens with
  | nil => rfl
  | cons next rest ih =>
      have hspace : (String.utf8EncodeChar ' ').foldl (Scanner.step scope)
          { tokens, word := some (octets word).reverse } =
            { tokens := .word (octets word).reverse.reverse :: tokens } := rfl
      rw [List.flatMap_cons, octets_append, List.foldl_append, octets_cons, List.foldl_append,
        hspace, foldl_quoteChars, ih, List.reverse_reverse]
      simp

end Scanner

theorem tokens_line (scope : Scope) (words : List String) :
    tokens scope (Utf8.encode (ShellWord.line words)) =
      words.map fun word => .word (Utf8.encode word) := by
  cases words with
  | nil => rfl
  | cons word rest =>
      have hline : Utf8.encode (ShellWord.line (word :: rest)) =
          octets (ShellWord.quoteChars word.toList) ++
            octets ((rest.map String.toList).flatMap fun w => ' ' :: ShellWord.quoteChars w) := by
        rw [← octets_append, Utf8.encode, ShellWord.line, String.toList_ofList]
        rfl
      have hall : (word :: rest).map String.toList =
          ((word :: rest).map String.toList).dropLast ++
            [((word :: rest).map String.toList).getLast (by simp)] :=
        (List.dropLast_concat_getLast _).symm
      have hwords : (word :: rest).map (fun word => Token.word (Utf8.encode word)) =
          ((word :: rest).map String.toList).map fun w => .word (octets w) := by
        rw [List.map_map]
        rfl
      rw [tokens, hline, List.foldl_append, foldl_quoteChars, foldl_spaced, hwords, hall]
      simp [Scanner.endName, Scanner.endWord]

end Programs.Shell

end ChatSpace
