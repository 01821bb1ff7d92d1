
namespace ChatSpace.ShellWord

def quoteChar (c : Char) : List Char :=
  if c = '\'' then ['\'', '\\', '\'', '\''] else [c]

def quoteChars (word : List Char) : List Char :=
  '\'' :: word.flatMap quoteChar ++ ['\'']

def joinChars : List (List Char) → List Char
  | [] => []
  | word :: words => quoteChars word ++ words.flatMap fun w => ' ' :: quoteChars w

def line (words : List String) : String :=
  String.ofList (joinChars (words.map String.toList))

inductive Mode where
  | plain
  | quoted
  | escaped
deriving DecidableEq, Repr

structure Reader where
  mode : Mode
  words : List (List Char)
  word : Option (List Char)
deriving DecidableEq, Repr

def Reader.endWord (r : Reader) : List (List Char) :=
  match r.word with
  | none => r.words
  | some w => w.reverse :: r.words

def Reader.add (r : Reader) (mode : Mode) (c : Char) : Reader :=
  ⟨mode, r.words, some (c :: r.word.getD [])⟩

def isSeparator (c : Char) : Bool :=
  c = ' ' || c = '\t' || c = '\n'

def Reader.step (r : Reader) (c : Char) : Reader :=
  match r.mode with
  | .quoted => if c = '\'' then ⟨.plain, r.words, r.word⟩ else r.add .quoted c
  | .escaped => r.add .plain c
  | .plain =>
      if c = '\'' then ⟨.quoted, r.words, some (r.word.getD [])⟩
      else if c = '\\' then ⟨.escaped, r.words, r.word⟩
      else if isSeparator c then ⟨.plain, r.endWord, none⟩
      else r.add .plain c

def splitChars (chars : List Char) : Option (List (List Char)) :=
  let r := chars.foldl Reader.step ⟨.plain, [], none⟩
  if r.mode = .plain then some r.endWord.reverse else none

def split (text : String) : Option (List String) :=
  (splitChars text.toList).map (·.map String.ofList)

theorem foldl_quoteChar (word : List Char) (words : List (List Char)) (start : List Char) :
    (word.flatMap quoteChar).foldl Reader.step ⟨.quoted, words, some start⟩
      = ⟨.quoted, words, some (word.reverse ++ start)⟩ := by
  induction word generalizing start with
  | nil => rfl
  | cons c word ih =>
      by_cases hc : c = '\''
      · subst hc
        simp [quoteChar, Reader.step, Reader.add, ih]
      · simp [quoteChar, hc, Reader.step, Reader.add, ih]

theorem foldl_quoteChars (word : List Char) (words : List (List Char)) :
    (quoteChars word).foldl Reader.step ⟨.plain, words, none⟩
      = ⟨.plain, words, some word.reverse⟩ := by
  simp [quoteChars, Reader.step, foldl_quoteChar]

theorem foldl_spaced (rest : List (List Char)) (word : List Char) (words : List (List Char)) :
    (rest.flatMap fun w => ' ' :: quoteChars w).foldl Reader.step
        ⟨.plain, words, some word.reverse⟩
      = ⟨.plain, (((word :: rest).dropLast).reverse ++ words),
          some ((word :: rest).getLast (by simp)).reverse⟩ := by
  induction rest generalizing word words with
  | nil => simp
  | cons next rest ih =>
      have hstep : Reader.step ⟨.plain, words, some word.reverse⟩ ' '
          = ⟨.plain, word :: words, none⟩ := by
        simp [Reader.step, isSeparator, Reader.endWord]
      simp only [List.flatMap_cons, List.cons_append, List.foldl_cons, List.foldl_append, hstep,
        foldl_quoteChars, ih]
      simp

theorem splitChars_joinChars (words : List (List Char)) :
    splitChars (joinChars words) = some words := by
  cases words with
  | nil => rfl
  | cons word rest =>
      simp [splitChars, joinChars, foldl_quoteChars, foldl_spaced, Reader.endWord,
        List.dropLast_concat_getLast]

theorem split_line (words : List String) : split (line words) = some words := by
  simp [split, line, splitChars_joinChars]

end ChatSpace.ShellWord
