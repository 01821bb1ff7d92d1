import ChatSpace.Proofs.Commit.Grammar
import ChatSpace.Space.Read

namespace ChatSpace

theorem Lines.newline_not_mem {text line : String} (h : line ∈ ofText text) :
    '\n' ∉ line.toList := by
  obtain ⟨chars, hchars, rfl⟩ := List.mem_map.mp h
  rw [String.toList_ofList]
  rcases List.mem_append.mp hchars with hinner | hlast
  · obtain ⟨part, hpart, rfl⟩ := List.mem_map.mp hinner
    have hplain := Fields.not_mem_of_mem_split '\n' _ _ ((List.dropLast_sublist _).subset hpart)
    unfold dropReturn
    split
    · exact fun hmem => hplain ((List.dropLast_sublist _).subset hmem)
    · exact hplain
  · split at hlast
    · cases hlast
    · obtain rfl := List.mem_singleton.mp hlast
      have hfield : (Fields.split '\n' text.toList).getLastD [] ∈
          [] :: Fields.split '\n' text.toList := List.getLastD_mem_cons
      rcases List.mem_cons.mp hfield with hnil | hmem
      · rw [hnil]
        simp
      · exact Fields.not_mem_of_mem_split '\n' _ _ hmem

@[simp] theorem Lines.newline_not_mem_first (text : String) : '\n' ∉ (first text).toList := by
  cases h : ofText text with
  | nil => simp [first, h]
  | cons line lines =>
      have hline : line ∈ ofText text := by simp [h]
      rw [first, h]
      exact newline_not_mem hline

theorem Decimal.newline_ne_of_isDigit {chars : List Char} (h : ∀ c ∈ chars, c.isDigit) :
    '\n' ∉ chars := fun hmem => absurd (h _ hmem) (by decide)

@[simp] theorem Calendar.Moment.newline_not_mem_text (m : Moment) : '\n' ∉ m.text.toList := by
  have hdigits (n : Nat) : '\n' ∉ Decimal.digits n :=
    Decimal.newline_ne_of_isDigit fun _ => Decimal.isDigit_of_mem_digits
  have hpadded (width n : Nat) : '\n' ∉ Decimal.padded width n :=
    Decimal.newline_ne_of_isDigit fun _ => Decimal.isDigit_of_mem_padded
  have hweekday : '\n' ∉ (weekdayName (weekday m.date.toDay)).toList := by
    unfold weekdayName
    split <;> decide
  have hmonth : '\n' ∉ (monthName m.date.month).toList := by
    unfold monthName
    split <;> decide
  have hyear : '\n' ∉ yearText m.date.year := by
    unfold yearText
    repeat' split
    all_goals simp [hpadded]
  have hzone : '\n' ∉ zoneText m.offset := by
    unfold zoneText
    split <;> simp [hpadded]
  simp [text, hdigits, hpadded, hweekday, hmonth, hyear, hzone]

@[simp] theorem ObjectId.newline_not_mem_shown (id : ObjectId) (abbreviated : Bool) :
    '\n' ∉ (id.shown abbreviated).toList := by
  have hhex : '\n' ∉ id.hex.toList := by
    rw [hex, Hex.text, String.toList_ofList]
    intro hmem
    obtain ⟨d, hd, heq⟩ := List.mem_map.mp hmem
    have hten : d = Bytes.newline :=
      UInt8.toNat_inj.mp (Utf8.eq_toNat_of_ofNat_eq heq ⟨by decide, by decide⟩)
    rw [hten] at hd
    exact newline_not_mem_encode id hd
  cases abbreviated
  · exact hhex
  · rw [shown, if_pos rfl, short, String.toList_ofList]
    exact fun hmem => hhex (List.mem_of_mem_take hmem)

theorem Bytes.mem_of_mem_trim {b : UInt8} {bytes : Bytes} (h : b ∈ trim bytes) : b ∈ bytes := by
  rw [trim, List.mem_reverse] at h
  have hback := List.mem_reverse.mp ((List.dropWhile_suffix _).subset h)
  exact (List.dropWhile_suffix _).subset hback

theorem Signature.display_toList (s : Signature) :
    s.display.toList = s.name.toList ++ [' ', '<'] ++ s.email.toList ++ ['>'] := by
  simp [display]

theorem Signature.Spelled.newline_not_mem_display {value : Bytes} {s : Signature}
    (h : Spelled value s) (hline : Bytes.newline ∉ value) : '\n' ∉ s.display.toList := by
  obtain ⟨name, email, rest, hparts, rfl⟩ := h
  have hname : '\n' ∉ (Utf8.lossy (Bytes.trim name)).toList := by
    intro hmem
    have hbyte := Bytes.mem_of_mem_trim (Utf8.newline_mem_of_mem_lossy hmem)
    exact hline (by simp [hparts.value_eq, hbyte])
  have hemail : '\n' ∉ (Utf8.lossy email).toList := by
    intro hmem
    have hbyte := Utf8.newline_mem_of_mem_lossy hmem
    exact hline (by simp [hparts.value_eq, hbyte])
  simp [display_toList, ofParts, hname, hemail]

theorem Commit.newline_not_mem_author {oid : ObjectId} {raw : Bytes} {c : Commit}
    (h : parse oid raw = .ok c) : '\n' ∉ c.author.display.toList := by
  cases reads_iff.mpr h with
  | commit hauthored _ _ =>
      obtain ⟨value, again, ⟨digits, names, hlines, -, -⟩, hvalue⟩ := hauthored
      have hmem : Header.author.lead ++ value ∈ Fields.split Bytes.newline raw := by simp [hlines]
      have hplain := Fields.not_mem_of_mem_split Bytes.newline _ _ hmem
      exact hvalue.newline_not_mem_display fun hin => hplain (List.mem_append_right _ hin)

namespace Space

theorem encode_text (lines : List String) :
    Utf8.encode (text lines) = (lines.map Utf8.encode).flatMap (· ++ [Bytes.newline]) := by
  have hnewline : Utf8.encode "\n" = [Bytes.newline] := rfl
  induction lines with
  | nil => rfl
  | cons line lines ih =>
      have hcons : text (line :: lines) = line ++ "\n" ++ text lines := by simp [text]
      rw [hcons, Utf8.encode_append, Utf8.encode_append, ih, hnewline]
      rfl

theorem split_text {lines : List String} (h : ∀ line ∈ lines, '\n' ∉ line.toList) :
    Fields.split Bytes.newline (Utf8.encode (text lines)) = lines.map Utf8.encode ++ [[]] := by
  have hfields : ∀ field ∈ lines.map Utf8.encode, Bytes.newline ∉ field := by
    intro field hfield
    obtain ⟨line, hline, rfl⟩ := List.mem_map.mp hfield
    exact Utf8.newline_not_mem_encode (h line hline)
  rw [encode_text, ← List.append_nil (List.flatMap _ _), Fields.split_flatMap hfields,
    Fields.split_nil]

def Parsed (commits : List Commit) : Prop :=
  ∀ c ∈ commits, ∃ oid raw, Commit.parse oid raw = .ok c

def historyLines (colour : Bool) (options : ReadOptions) : List Commit → List String
  | [] => []
  | c :: commits =>
      lines colour options false c ++ commits.flatMap (lines colour options true)

theorem historyLines_concat (colour : Bool) (options : ReadOptions) (commits : List Commit)
    (c : Commit) :
    historyLines colour options (commits ++ [c]) =
      historyLines colour options commits ++ lines colour options (0 < commits.length) c := by
  cases commits with
  | nil => simp [historyLines]
  | cons first commits => simp [historyLines]

variable {options : ReadOptions} {abbreviated : Bool} {commits : List Commit} {c : Commit}

theorem newline_not_mem_mediumLines {oid : ObjectId} {raw : Bytes}
    (h : Commit.parse oid raw = .ok c) {line : String}
    (hline : line ∈ mediumLines false abbreviated c) : '\n' ∉ line.toList := by
  rcases List.mem_append.mp hline with hhead | hbody
  · simp only [List.mem_cons, List.not_mem_nil, or_false] at hhead
    rcases hhead with rfl | rfl | rfl | rfl
    · simp [highlight]
    · simp [Commit.newline_not_mem_author h]
    · simp [Timestamp.text]
    · simp
  · obtain ⟨text, hmem, rfl⟩ := List.mem_map.mp hbody
    simp [indent, Lines.newline_not_mem hmem]

theorem newline_not_mem_lines {oid : ObjectId} {raw : Bytes} (h : Commit.parse oid raw = .ok c)
    {separate : Bool} {line : String} (hline : line ∈ lines false options separate c) :
    '\n' ∉ line.toList := by
  unfold lines at hline
  split at hline
  · obtain rfl := List.mem_singleton.mp hline
    simp [shortLine, highlight, Commit.shortMessage]
  · rcases List.mem_append.mp hline with hseparator | hline
    · cases separate <;> simp_all
    · exact newline_not_mem_mediumLines h hline

theorem newline_not_mem_historyLines (h : Parsed commits) {line : String}
    (hline : line ∈ historyLines false options commits) : '\n' ∉ line.toList := by
  cases commits with
  | nil => cases hline
  | cons c commits =>
      rcases List.mem_append.mp hline with hfirst | hmore
      · obtain ⟨oid, raw, hc⟩ := h c (by simp)
        exact newline_not_mem_lines hc hfirst
      · obtain ⟨next, hnext, hmem⟩ := List.mem_flatMap.mp hmore
        obtain ⟨oid, raw, hc⟩ := h next (by simp [hnext])
        exact newline_not_mem_lines hc hmem

inductive Mark where
  | commit
  | author
  | date
  | message
deriving DecidableEq, Repr

def Mark.lead : Mark → Bytes
  | .commit => Utf8.encode "commit "
  | .author => Utf8.encode "Author: "
  | .date => Utf8.encode "Date:   "
  | .message => Utf8.encode "    "

def Mark.of? (line : Bytes) : Option (Mark × Bytes) :=
  [commit, author, date, message].findSome? fun mark =>
    (Bytes.after? mark.lead line).map (mark, ·)

@[simp] theorem Mark.of?_lead (mark : Mark) (rest : Bytes) :
    of? (mark.lead ++ rest) = some (mark, rest) := by
  cases mark <;> rfl

def Mark.commit? (marked : Mark × Bytes) : Option Bytes :=
  if marked.1 = commit then some marked.2 else none

theorem Mark.commit?_of? (line : Bytes) :
    (of? line).bind commit? = Bytes.after? commit.lead line := by
  cases hcommit : Bytes.after? commit.lead line with
  | some id =>
      rw [Bytes.eq_append_of_after? hcommit, of?_lead]
      rfl
  | none =>
      cases hmark : of? line with
      | none => rfl
      | some found =>
          obtain ⟨mark, hmem, hfound⟩ := List.exists_of_findSome?_eq_some hmark
          obtain ⟨rest, hrest, rfl⟩ := Option.map_eq_some_iff.mp hfound
          cases mark with
          | commit => simp [hcommit] at hrest
          | author => rfl
          | date => rfl
          | message => rfl

def marks (output : Bytes) : List (Mark × Bytes) :=
  (Fields.split Bytes.newline output).filterMap Mark.of?

structure Entry where
  id : String
  author : String
  date : String
  message : List String
deriving DecidableEq, Repr

namespace Entry

def ofCommit (abbreviated : Bool) (c : Commit) : Entry :=
  { id := c.oid.shown abbreviated
    author := c.author.display
    date := c.author.timestamp.text
    message := Lines.ofText c.body }

def marks (e : Entry) : List (Mark × Bytes) :=
  (.commit, Utf8.encode e.id) :: (.author, Utf8.encode e.author) :: (.date, Utf8.encode e.date) ::
    e.message.map fun line => (.message, Utf8.encode line)

theorem filterMap_commit? (entries : List Entry) :
    (entries.flatMap marks).filterMap Mark.commit? = entries.map (Utf8.encode ·.id) := by
  induction entries with
  | nil => rfl
  | cons e entries ih =>
      rw [List.flatMap_cons, List.filterMap_append, ih]
      simp [marks, Mark.commit?]

end Entry

/-- What was read from the end of the output: entries, and the lines before them that have no entry
yet. -/
structure Reading where
  author : String := ""
  date : String := ""
  message : List String := []
  entries : List Entry := []

def Reading.back : Mark × Bytes → Reading → Reading
  | (.commit, id), r => { entries := ⟨Utf8.lossy id, r.author, r.date, r.message⟩ :: r.entries }
  | (.author, author), r => { r with author := Utf8.lossy author }
  | (.date, date), r => { r with date := Utf8.lossy date }
  | (.message, line), r => { r with message := Utf8.lossy line :: r.message }

def readBack (output : Bytes) : List Entry :=
  ((marks output).foldr Reading.back {}).entries

theorem foldr_message (message : List String) (r : Reading) :
    (message.map fun line => (Mark.message, Utf8.encode line)).foldr Reading.back r =
      { r with message := message ++ r.message } := by
  induction message with
  | nil => rfl
  | cons line message ih => simp [ih, Reading.back]

theorem foldr_marks (entries : List Entry) :
    (entries.flatMap Entry.marks).foldr Reading.back {} = { entries } := by
  induction entries with
  | nil => rfl
  | cons e entries ih =>
      simp [Entry.marks, ih, foldr_message, Reading.back]

theorem filterMap_mediumLines (abbreviated : Bool) (c : Commit) :
    ((mediumLines false abbreviated c).map Utf8.encode).filterMap Mark.of? =
      (Entry.ofCommit abbreviated c).marks := by
  have hcommit := Mark.of?_lead .commit (Utf8.encode (c.oid.shown abbreviated))
  have hauthor := Mark.of?_lead .author (Utf8.encode c.author.display)
  have hdate := Mark.of?_lead .date (Utf8.encode c.author.timestamp.text)
  have hblank : Mark.of? (Utf8.encode "") = none := rfl
  have hmessage (line : String) := Mark.of?_lead .message (Utf8.encode line)
  simp only [Mark.lead] at hcommit hauthor hdate hmessage
  simp [mediumLines, highlight, indent, Utf8.encode_append, Entry.marks, Entry.ofCommit, hcommit,
    hauthor, hdate, hblank, hmessage]

theorem filterMap_lines (hfull : options.oneline = false) (separate : Bool) (c : Commit) :
    ((lines false options separate c).map Utf8.encode).filterMap Mark.of? =
      (Entry.ofCommit options.abbreviated c).marks := by
  rw [lines, hfull, if_neg Bool.false_ne_true, List.map_append, List.filterMap_append,
    filterMap_mediumLines]
  cases separate <;> rfl

theorem marks_historyLines (h : Parsed commits) (hfull : options.oneline = false) :
    marks (Utf8.encode (text (historyLines false options commits))) =
      (commits.map (Entry.ofCommit options.abbreviated)).flatMap Entry.marks := by
  have hmore (commits : List Commit) :
      ((commits.flatMap (lines false options true)).map Utf8.encode).filterMap Mark.of? =
        (commits.map (Entry.ofCommit options.abbreviated)).flatMap Entry.marks := by
    induction commits with
    | nil => rfl
    | cons c commits ih =>
        rw [List.flatMap_cons, List.map_append, List.filterMap_append, filterMap_lines hfull, ih]
        rfl
  have hend : [[]].filterMap Mark.of? = [] := rfl
  rw [marks, split_text fun _ => newline_not_mem_historyLines h, List.filterMap_append, hend,
    List.append_nil]
  cases commits with
  | nil => rfl
  | cons c commits =>
      rw [historyLines, List.map_append, List.filterMap_append, filterMap_lines hfull, hmore]
      rfl

theorem readBack_historyLines (h : Parsed commits) (hfull : options.oneline = false) :
    readBack (Utf8.encode (text (historyLines false options commits))) =
      commits.map (Entry.ofCommit options.abbreviated) := by
  rw [readBack, marks_historyLines h hfull, foldr_marks]

theorem commitLines_historyLines (h : Parsed commits) (hfull : options.oneline = false) :
    (Fields.split Bytes.newline (Utf8.encode (text (historyLines false options commits)))).filterMap
      (Bytes.after? Mark.commit.lead) =
        commits.map fun c => Utf8.encode (c.oid.shown options.abbreviated) := by
  have hmarks := congrArg (List.filterMap Mark.commit?) (marks_historyLines h hfull)
  rw [marks, List.filterMap_filterMap, Entry.filterMap_commit?, List.map_map] at hmarks
  have hline : (fun line => (Mark.of? line).bind Mark.commit?) =
      Bytes.after? Mark.commit.lead := funext Mark.commit?_of?
  rw [hline] at hmarks
  exact hmarks

theorem historyLines_oneline (hone : options.oneline = true) (commits : List Commit) :
    historyLines false options commits =
      commits.map fun c => c.oid.shown options.abbreviated ++ " " ++ c.shortMessage := by
  have hline (separate : Bool) : lines false options separate =
      fun c => [c.oid.shown options.abbreviated ++ " " ++ c.shortMessage] := by
    funext c
    simp [lines, hone, shortLine, highlight]
  cases commits with
  | nil => rfl
  | cons c commits => simp [historyLines, hline, List.map_eq_flatMap]

theorem split_historyLines (h : Parsed commits) (hone : options.oneline = true) :
    Fields.split Bytes.newline (Utf8.encode (text (historyLines false options commits))) =
      commits.map (fun c => Utf8.encode (c.oid.shown options.abbreviated ++ " " ++ c.shortMessage))
        ++ [[]] := by
  rw [split_text fun _ => newline_not_mem_historyLines h, historyLines_oneline hone, List.map_map]
  rfl

end Space

end ChatSpace
