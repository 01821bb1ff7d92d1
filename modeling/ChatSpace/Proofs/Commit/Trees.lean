import ChatSpace.Proofs.Commit.Layout

namespace ChatSpace.Commit

def headerSection (raw : Bytes) : List Bytes :=
  (Fields.split Bytes.newline raw).takeWhile (!·.isEmpty)

def beforeCommitter (lines : List Bytes) : List Bytes :=
  lines.takeWhile fun line => (Header.committer.value? line).isNone

def Header.count (header : Header) (lines : List Bytes) : Nat :=
  lines.countP fun line => (header.value? line).isSome

variable {oid tree : ObjectId} {parents : List ObjectId} {author : Signature}
  {header other : Header} {lines front rest late late' before : List Bytes} {value raw : Bytes}

theorem value?_lead_of_ne (h : header ≠ other) : header.value? (other.lead ++ value) = none := by
  have hnot : ¬ Leads header [other.lead ++ value] := not_leads_of_ne h
  exact value?_of_not_leads hnot

def Among (headers : List Header) (line : Bytes) : Prop :=
  ∃ header ∈ headers, ∃ value, line = header.lead ++ value

theorem Among.value?_eq_none {headers : List Header} {line : Bytes} (h : Among headers line)
    (hheader : header ∉ headers) : header.value? line = none := by
  obtain ⟨other, hother, value, rfl⟩ := h
  exact value?_lead_of_ne fun heq => hheader (heq ▸ hother)

theorem Among.ne_nil {headers : List Header} {line : Bytes} (h : Among headers line) :
    line ≠ [] := by
  obtain ⟨header, -, value, rfl⟩ := h
  exact lead_append_ne_nil header value

theorem Authored.exists_front (h : Authored tree parents author lines rest) :
    ∃ digits others, lines = (Header.tree.lead ++ digits) :: others ++ rest ∧
      ObjectId.Named digits tree ∧ ∀ line ∈ others, Among [.parent, .author] line := by
  obtain ⟨value, again, ⟨digits, names, rfl, htree, -⟩, -⟩ := h
  refine ⟨digits, names.map (Header.parent.lead ++ ·) ++
    (Header.author.lead ++ value) :: again.map (Header.author.lead ++ ·), by simp, htree, ?_⟩
  intro line hline
  simp only [List.mem_append, List.mem_map, List.mem_cons] at hline
  rcases hline with ⟨name, -, rfl⟩ | rfl | ⟨value, -, rfl⟩
  · exact ⟨.parent, by simp, name, rfl⟩
  · exact ⟨.author, by simp, value, rfl⟩
  · exact ⟨.author, by simp, value, rfl⟩

theorem beforeCommitter_headerSection
    (hlines : Fields.split Bytes.newline raw = front ++ (Header.committer.lead ++ value) :: rest)
    (hfront : ∀ line ∈ front, Among [.tree, .parent, .author] line) :
    beforeCommitter (headerSection raw) = front := by
  have hsection : headerSection raw =
      front ++ (Header.committer.lead ++ value) :: rest.takeWhile (!·.isEmpty) := by
    rw [headerSection, hlines, List.takeWhile_append_of_pos, List.takeWhile_cons_of_pos]
    · simpa using lead_append_ne_nil .committer value
    · intro line hline
      simpa using (hfront line hline).ne_nil
  rw [beforeCommitter, hsection, List.takeWhile_append_of_pos, List.takeWhile_cons_of_neg]
  · simp
  · simp
  · intro line hline
    have hnone : Header.committer.value? line = none :=
      (hfront line hline).value?_eq_none (by decide)
    simp [hnone]

theorem count_of_parse {c : Commit} (h : parse oid raw = .ok c) :
    Header.tree.count (beforeCommitter (headerSection raw)) = 1 ∧
      ∃ digits, (beforeCommitter (headerSection raw)).head? = some (Header.tree.lead ++ digits) ∧
        ObjectId.Named digits c.tree := by
  cases (parse_eq_iff oid raw _).mp h with
  | commit hauthored _ _ =>
      obtain ⟨digits, others, hlines, htree, hothers⟩ := hauthored.exists_front
      have hfront : ∀ line ∈ (Header.tree.lead ++ digits) :: others,
          Among [.tree, .parent, .author] line := by
        intro line hline
        rcases List.mem_cons.mp hline with rfl | hline
        · exact ⟨.tree, by simp, digits, rfl⟩
        · obtain ⟨header, hheader, value, rfl⟩ := hothers line hline
          exact ⟨header, List.mem_cons_of_mem _ hheader, value, rfl⟩
      have hnone : others.countP (fun line => (Header.tree.value? line).isSome) = 0 := by
        rw [List.countP_eq_zero]
        intro line hline
        simp [(hothers line hline).value?_eq_none (by decide : Header.tree ∉ _)]
      rw [beforeCommitter_headerSection hlines hfront]
      exact ⟨by simp [Header.count, hnone], digits, rfl, htree⟩

theorem exists_rest_of_append (hfront : ∀ line ∈ front, Among [.tree, .parent, .author] line)
    (h : front ++ rest = before ++ (Header.committer.lead ++ value) :: late) :
    ∃ middle, before = front ++ middle ∧
      rest = middle ++ (Header.committer.lead ++ value) :: late := by
  rcases List.append_eq_append_iff.mp h with ⟨middle, hbefore, hrest⟩ | ⟨middle, hfront', hrest⟩
  · exact ⟨middle, hbefore, hrest⟩
  · cases middle with
    | nil => exact ⟨[], by simpa using hfront'.symm, hrest.symm⟩
    | cons line middle =>
        obtain ⟨rfl, -⟩ := List.cons.inj hrest
        have hamong := hfront (Header.committer.lead ++ value) (by simp [hfront'])
        have hnone : Header.committer.value? _ = none := hamong.value?_eq_none (by decide)
        simp at hnone

theorem Opened.exists_middle (h : Opened tree parents
    (before ++ (Header.committer.lead ++ value) :: late) rest) :
    ∃ middle, rest = middle ++ (Header.committer.lead ++ value) :: late ∧
      ∀ late', Opened tree parents (before ++ (Header.committer.lead ++ value) :: late')
        (middle ++ (Header.committer.lead ++ value) :: late') := by
  obtain ⟨digits, names, hlines, htree, hnames⟩ := h
  have hfront : ∀ line ∈ (Header.tree.lead ++ digits) :: names.map (Header.parent.lead ++ ·),
      Among [.tree, .parent, .author] line := by
    intro line hline
    rcases List.mem_cons.mp hline with rfl | hline
    · exact ⟨.tree, by simp, digits, rfl⟩
    · obtain ⟨name, -, rfl⟩ := List.mem_map.mp hline
      exact ⟨.parent, by simp, name, rfl⟩
  obtain ⟨middle, rfl, hrest⟩ := exists_rest_of_append hfront hlines.symm
  exact ⟨middle, hrest, fun late' => ⟨digits, names, by simp, htree, hnames⟩⟩

theorem Authored.exists_middle (h : Authored tree parents author
    (before ++ (Header.committer.lead ++ value) :: late) rest) :
    ∃ middle, rest = middle ++ (Header.committer.lead ++ value) :: late ∧
      ∀ late', Authored tree parents author (before ++ (Header.committer.lead ++ value) :: late')
        (middle ++ (Header.committer.lead ++ value) :: late') := by
  obtain ⟨found, again, hopened, hfound⟩ := h
  obtain ⟨middle, hmiddle, hopened'⟩ := hopened.exists_middle
  have hfront : ∀ line ∈ (Header.author.lead ++ found) :: again.map (Header.author.lead ++ ·),
      Among [.tree, .parent, .author] line := by
    intro line hline
    rcases List.mem_cons.mp hline with rfl | hline
    · exact ⟨.author, by simp, found, rfl⟩
    · obtain ⟨other, -, rfl⟩ := List.mem_map.mp hline
      exact ⟨.author, by simp, other, rfl⟩
  obtain ⟨last, rfl, hrest⟩ := exists_rest_of_append hfront hmiddle
  exact ⟨last, hrest, fun late' => ⟨found, again, by simpa using hopened' late', hfound⟩⟩

theorem exists_tail {line : Bytes}
    (h : before ++ (other.lead ++ value) :: late = line :: rest) (late' : List Bytes) :
    ∃ rest', before ++ (other.lead ++ value) :: late' = line :: rest' := by
  cases before with
  | nil => exact ⟨late', by rw [List.nil_append, (List.cons.inj h).1]⟩
  | cons first before => exact ⟨_, by rw [List.cons_append, (List.cons.inj h).1]⟩

theorem Leads.replace (h : Leads header (before ++ (other.lead ++ value) :: late))
    (late' : List Bytes) : Leads header (before ++ (other.lead ++ value) :: late') := by
  obtain ⟨found, rest, heq⟩ := h
  obtain ⟨rest', heq'⟩ := exists_tail heq late'
  exact ⟨found, rest', heq'⟩

theorem message_eq_nil {message : Bytes} (h : Message lines message) (hblank : [] ∉ lines) :
    message = [] := by
  cases h with
  | blank heq _ => exact absurd (by simp [heq]) hblank
  | missing _ => rfl

theorem Reads.replace {r : Except ParseError Commit}
    (h : Reads oid (before ++ (Header.committer.lead ++ value) :: late) r)
    (hblank : [] ∉ before ++ (Header.committer.lead ++ value) :: late)
    (hblank' : [] ∉ before ++ (Header.committer.lead ++ value) :: late') :
    Reads oid (before ++ (Header.committer.lead ++ value) :: late') r := by
  cases h with
  | missingTree htree => exact .missingTree fun hleads => htree (hleads.replace late)
  | invalidTree heq hdigits =>
      obtain ⟨rest', heq'⟩ := exists_tail heq late'
      exact .invalidTree heq' hdigits
  | invalidParent hopened hdigits =>
      obtain ⟨middle, hmiddle, hopened'⟩ := hopened.exists_middle
      obtain ⟨rest', heq⟩ := exists_tail hmiddle.symm late'
      exact .invalidParent (heq ▸ hopened' late') hdigits
  | duplicateTree hopened htree =>
      obtain ⟨middle, rfl, hopened'⟩ := hopened.exists_middle
      exact .duplicateTree (hopened' late') (htree.replace late')
  | missingAuthor hopened hparent htree hauthor =>
      obtain ⟨middle, rfl, hopened'⟩ := hopened.exists_middle
      exact .missingAuthor (hopened' late') (fun hleads => hparent (hleads.replace late))
        (fun hleads => htree (hleads.replace late)) fun hleads => hauthor (hleads.replace late)
  | malformedAuthor hopened hvalue =>
      obtain ⟨middle, hmiddle, hopened'⟩ := hopened.exists_middle
      obtain ⟨rest', heq⟩ := exists_tail hmiddle.symm late'
      exact .malformedAuthor (heq ▸ hopened' late') hvalue
  | missingCommitter hauthored hauthor hcommitter =>
      obtain ⟨middle, rfl, hauthored'⟩ := hauthored.exists_middle
      exact .missingCommitter (hauthored' late') (fun hleads => hauthor (hleads.replace late))
        fun hleads => hcommitter (hleads.replace late)
  | malformedCommitter hauthored hvalue =>
      obtain ⟨middle, hmiddle, hauthored'⟩ := hauthored.exists_middle
      obtain ⟨rest', heq⟩ := exists_tail hmiddle.symm late'
      exact .malformedCommitter (heq ▸ hauthored' late') hvalue
  | commit hauthored hvalue hmessage =>
      obtain ⟨middle, hmiddle, hauthored'⟩ := hauthored.exists_middle
      obtain ⟨rest', heq⟩ := exists_tail hmiddle.symm late'
      have hread := heq ▸ hauthored' late'
      have hnone : [] ∉ rest' := fun hmem =>
        hblank' (hread.subset (List.mem_cons_of_mem _ hmem))
      obtain rfl := message_eq_nil hmessage fun hmem =>
        hblank (hauthored.subset (List.mem_cons_of_mem _ hmem))
      exact .commit hread hvalue (.missing hnone)

theorem parse_one_tree (oid : ObjectId) :
    (∀ raw, 2 ≤ Header.tree.count (beforeCommitter (headerSection raw)) →
      ∃ e, parse oid raw = .error e) ∧
    (∀ raw c, parse oid raw = .ok c →
      Header.tree.count (beforeCommitter (headerSection raw)) = 1 ∧
      ∃ digits, (beforeCommitter (headerSection raw)).head? = some (Header.tree.lead ++ digits) ∧
        ObjectId.Named digits c.tree) ∧
    ∀ before value late late' body,
      (∀ line ∈ before ++ (Header.committer.lead ++ value) :: late,
        line ≠ [] ∧ Bytes.newline ∉ line) →
      (∀ line ∈ before ++ (Header.committer.lead ++ value) :: late',
        line ≠ [] ∧ Bytes.newline ∉ line) →
      parse oid (layout (before ++ (Header.committer.lead ++ value) :: late) body) =
        parse oid (layout (before ++ (Header.committer.lead ++ value) :: late') body) := by
  refine ⟨?_, fun raw c => count_of_parse, ?_⟩
  · intro raw htrees
    cases hparse : parse oid raw with
    | error e => exact ⟨e, rfl⟩
    | ok c =>
        have hone := (count_of_parse hparse).1
        omega
  · intro before value late late' body hlines hlines'
    obtain ⟨r, hreads⟩ := exists_reads oid (before ++ (Header.committer.lead ++ value) :: late)
    have hreads' := hreads.replace (fun hmem => (hlines [] hmem).1 rfl)
      fun hmem => (hlines' [] hmem).1 rfl
    rw [parse_layout hlines hreads, parse_layout hlines' hreads']

def treeLine : Bytes :=
  Header.tree.lead ++ ObjectId.zero.encode

def authorLine : Bytes :=
  Header.author.lead ++ Utf8.encode "A <a> 1 +0000"

def committerLine : Bytes :=
  Header.committer.lead ++ Utf8.encode "A <a> 1 +0000"

theorem parse_one_tree_between :
    let raw := layout [treeLine, authorLine, treeLine, authorLine, committerLine] []
    2 ≤ Header.tree.count (beforeCommitter (headerSection raw)) ∧
      ∃ e, parse .zero raw = .error e := by
  intro raw
  have htrees : 2 ≤ Header.tree.count (beforeCommitter (headerSection raw)) := by decide +kernel
  exact ⟨htrees, (parse_one_tree .zero).1 raw htrees⟩

theorem parse_late_tree :
    ¬ ∀ oid raw, 2 ≤ Header.tree.count (headerSection raw) → ∃ e, parse oid raw = .error e := by
  intro h
  obtain ⟨e, he⟩ := h .zero (layout [treeLine, authorLine, committerLine, treeLine] [])
    (by decide +kernel)
  have hok : (parse .zero (layout [treeLine, authorLine, committerLine, treeLine] [])).toBool =
      true := by decide +kernel
  rw [he] at hok
  cases hok

end ChatSpace.Commit
