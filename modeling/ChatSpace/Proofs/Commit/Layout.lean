import ChatSpace.Proofs.Commit.Grammar

namespace ChatSpace.Commit

variable {oid tree : ObjectId} {parents : List ObjectId} {author committer : Signature}
  {header : Header} {headers lines rest message : List Bytes} {r : Except ParseError Commit}

theorem lead_append_ne_nil (header : Header) (value : Bytes) : header.lead ++ value ≠ [] := by
  cases header <;> exact List.cons_ne_nil _ _

theorem not_leads_append (h : ¬ Leads header rest) (message : List Bytes) :
    ¬ Leads header (rest ++ [] :: message) := by
  rintro ⟨value, tail, heq⟩
  cases rest with
  | nil => exact lead_append_ne_nil header value (List.cons.inj heq).1.symm
  | cons line rest =>
      obtain ⟨rfl, -⟩ := List.cons.inj heq
      exact h ⟨value, rest, rfl⟩

theorem Opened.append (h : Opened tree parents lines rest) (more : List Bytes) :
    Opened tree parents (lines ++ more) (rest ++ more) := by
  obtain ⟨digits, names, rfl, htree, hnames⟩ := h
  exact ⟨digits, names, by simp, htree, hnames⟩

theorem Opened.subset (h : Opened tree parents lines rest) : rest ⊆ lines := by
  obtain ⟨digits, names, rfl, -⟩ := h
  exact List.subset_append_right _ _

theorem Authored.append (h : Authored tree parents author lines rest) (more : List Bytes) :
    Authored tree parents author (lines ++ more) (rest ++ more) := by
  obtain ⟨value, again, hopened, hvalue⟩ := h
  have hmore := hopened.append more
  rw [List.append_assoc] at hmore
  exact ⟨value, again, hmore, hvalue⟩

theorem Authored.subset (h : Authored tree parents author lines rest) : rest ⊆ lines := by
  obtain ⟨value, again, hopened, -⟩ := h
  exact List.Subset.trans (List.subset_append_right _ _) hopened.subset

theorem Reads.append_message (h : Reads oid headers r) (hblank : [] ∉ headers)
    (message : List Bytes) :
    Reads oid (headers ++ [] :: message) (r.map fun c =>
      { c with body := Utf8.lossy (Bytes.trim (Fields.join Bytes.newline message)) }) := by
  cases h with
  | missingTree htree => exact .missingTree (not_leads_append htree _)
  | invalidTree heq hdigits => subst heq; exact .invalidTree rfl hdigits
  | invalidParent hopened hdigits => exact .invalidParent (hopened.append _) hdigits
  | duplicateTree hopened htree =>
      obtain ⟨value, rest, rfl⟩ := htree
      exact .duplicateTree (hopened.append _) ⟨value, _, rfl⟩
  | missingAuthor hopened hparent htree hauthor =>
      exact .missingAuthor (hopened.append _) (not_leads_append hparent _)
        (not_leads_append htree _) (not_leads_append hauthor _)
  | malformedAuthor hopened hvalue => exact .malformedAuthor (hopened.append _) hvalue
  | missingCommitter hauthored hauthor hcommitter =>
      exact .missingCommitter (hauthored.append _) (not_leads_append hauthor _)
        (not_leads_append hcommitter _)
  | malformedCommitter hauthored hvalue => exact .malformedCommitter (hauthored.append _) hvalue
  | commit hauthored hvalue _ =>
      refine .commit (hauthored.append _) hvalue (.blank rfl ?_)
      intro hmem
      apply hblank
      exact hauthored.subset (List.mem_cons_of_mem _ hmem)

theorem split_layout (h : ∀ line ∈ headers, Bytes.newline ∉ line) (body : Bytes) :
    Fields.split Bytes.newline (layout headers body) =
      headers ++ [] :: Fields.split Bytes.newline body := by
  rw [layout, Fields.split_flatMap h]
  have hblank := Fields.split_append_of_not_mem Bytes.newline [] body (by simp)
  rw [List.nil_append] at hblank
  rw [hblank]

theorem parse_layout (hlines : ∀ line ∈ headers, line ≠ [] ∧ Bytes.newline ∉ line)
    (hreads : Reads oid headers r) (body : Bytes) :
    parse oid (layout headers body) =
      r.map fun c => { c with body := Utf8.lossy (Bytes.trim body) } := by
  have hblank : [] ∉ headers := fun hmem => (hlines [] hmem).1 rfl
  have happend := hreads.append_message hblank (Fields.split Bytes.newline body)
  rw [Fields.join_split] at happend
  rw [parse, split_layout (fun line hline => (hlines line hline).2) body]
  exact parseLines_of_reads happend

theorem parse_layout_same_headers (oid : ObjectId) (headers : List Bytes)
    (hlines : ∀ line ∈ headers, line ≠ [] ∧ Bytes.newline ∉ line) (first second : Bytes) :
    (∃ e, parse oid (layout headers first) = .error e ∧
      parse oid (layout headers second) = .error e) ∨
    ∃ tree parents author committer,
      parse oid (layout headers first) =
        .ok ⟨oid, tree, parents, author, committer, Utf8.lossy (Bytes.trim first)⟩ ∧
      parse oid (layout headers second) =
        .ok ⟨oid, tree, parents, author, committer, Utf8.lossy (Bytes.trim second)⟩ := by
  obtain ⟨r, hreads⟩ := exists_reads oid headers
  have hfirst := parse_layout hlines hreads first
  have hsecond := parse_layout hlines hreads second
  cases r with
  | error e => exact .inl ⟨e, hfirst, hsecond⟩
  | ok c =>
      have hoid : c.oid = oid := by cases hreads; rfl
      subst hoid
      exact .inr ⟨c.tree, c.parents, c.author, c.committer, hfirst, hsecond⟩

theorem parse_layout_same_headers_unsigned :
    let oid : ObjectId := ⟨List.replicate 20 0, rfl⟩
    let headers := [Header.tree.lead ++ oid.encode, Header.author.lead]
    let forged := Utf8.encode "author A <a> 1 +0000\ncommitter A <a> 1 +0000\n\nB\n"
    (∀ line ∈ headers, line ≠ [] ∧ Bytes.newline ∉ line) ∧
    ((∃ e, parse oid (layout headers []) = .error e ∧
      parse oid (layout headers forged) = .error e) ∨
    ∃ tree parents author committer,
      parse oid (layout headers []) =
        .ok ⟨oid, tree, parents, author, committer, Utf8.lossy (Bytes.trim [])⟩ ∧
      parse oid (layout headers forged) =
        .ok ⟨oid, tree, parents, author, committer, Utf8.lossy (Bytes.trim forged)⟩) := by
  intro oid headers forged
  have hlines : ∀ line ∈ headers, line ≠ [] ∧ Bytes.newline ∉ line := by decide
  exact ⟨hlines, parse_layout_same_headers oid headers hlines [] forged⟩

theorem headerLines_plain (hauthor : author.IsPlain) (hcommitter : committer.IsPlain)
    {extra : List Bytes} (hextra : ∀ line ∈ extra, line ≠ [] ∧ Bytes.newline ∉ line) :
    ∀ line ∈ headerLines tree parents author committer extra,
      line ≠ [] ∧ Bytes.newline ∉ line := by
  have hlead (header : Header) {value : Bytes} (hvalue : Bytes.newline ∉ value) :
      header.lead ++ value ≠ [] ∧ Bytes.newline ∉ header.lead ++ value := by
    have hheader : Bytes.newline ∉ header.lead := by cases header <;> decide
    exact ⟨lead_append_ne_nil header value, by simp [hheader, hvalue]⟩
  intro line hline
  simp only [headerLines, List.mem_append, List.mem_cons, List.mem_map, List.not_mem_nil,
    or_false] at hline
  rcases hline with ((rfl | ⟨id, -, rfl⟩) | rfl | rfl) | hline
  · exact hlead .tree tree.newline_not_mem_encode
  · exact hlead .parent id.newline_not_mem_encode
  · exact hlead .author (Signature.newline_not_mem_encode hauthor)
  · exact hlead .committer (Signature.newline_not_mem_encode hcommitter)
  · exact hextra line hline

theorem reads_headerLines (hauthor : author.IsPlain) (hcommitter : committer.IsPlain)
    {extra : List Bytes} (hextra : [] ∉ extra) :
    Reads oid (headerLines tree parents author committer extra)
      (.ok ⟨oid, tree, parents, author, committer, Utf8.lossy (Bytes.trim [])⟩) := by
  have hnames : List.Forall₂ ObjectId.Named (parents.map ObjectId.encode) parents := by
    rw [List.forall₂_map_left_iff, List.forall₂_same]
    exact fun id _ => ObjectId.named_encode id
  have hopened : Opened tree parents (headerLines tree parents author committer extra)
      ((Header.author.lead ++ author.encode) ::
        (Header.committer.lead ++ committer.encode) :: extra) :=
    ⟨tree.encode, parents.map ObjectId.encode, by simp [headerLines], ObjectId.named_encode tree,
      hnames⟩
  have hspelled {s : Signature} (h : s.IsPlain) : Signature.Spelled s.encode s :=
    Signature.parse_eq_some_iff.mp (Signature.parse_encode h)
  exact .commit ⟨author.encode, [], hopened, hspelled hauthor⟩ (hspelled hcommitter)
    (.missing hextra)

theorem parse_layout_headerLines (oid tree : ObjectId) (parents : List ObjectId)
    (author committer : Signature) (hauthor : author.IsPlain) (hcommitter : committer.IsPlain)
    (extra : List Bytes) (hextra : ∀ line ∈ extra, line ≠ [] ∧ Bytes.newline ∉ line)
    (body : Bytes) :
    parse oid (layout (headerLines tree parents author committer extra) body) =
      .ok ⟨oid, tree, parents, author, committer, Utf8.lossy (Bytes.trim body)⟩ := by
  have hreads : Reads oid (headerLines tree parents author committer extra) _ :=
    reads_headerLines hauthor hcommitter fun hmem => (hextra [] hmem).1 rfl
  rw [parse_layout (headerLines_plain hauthor hcommitter hextra) hreads]
  rfl

theorem parse_layout_headerLines_extremes :
    let oid : ObjectId := ⟨List.replicate 20 0, rfl⟩
    let author : Signature := ⟨"", "", ⟨-0x8000000000000000, -5999⟩⟩
    let committer : Signature := ⟨"a > b", "tree ", ⟨0x7FFFFFFFFFFFFFFF, 5999⟩⟩
    let extra := [Header.tree.lead, Header.committer.lead ++ [0xFF], Header.author.lead]
    let body := Bytes.newline :: Header.tree.lead ++ [0xFF, Bytes.newline, Bytes.newline]
    author.IsPlain ∧ committer.IsPlain ∧
    (∀ line ∈ extra, line ≠ [] ∧ Bytes.newline ∉ line) ∧
    parse oid (layout (headerLines oid [oid, oid] author committer extra) body) =
      .ok ⟨oid, oid, [oid, oid], author, committer, Utf8.lossy (Bytes.trim body)⟩ := by
  intro oid author committer extra body
  have hauthor : author.IsPlain := by decide
  have hcommitter : committer.IsPlain := by decide
  have hextra : ∀ line ∈ extra, line ≠ [] ∧ Bytes.newline ∉ line := by decide
  exact ⟨hauthor, hcommitter, hextra,
    parse_layout_headerLines oid oid [oid, oid] author committer hauthor hcommitter extra hextra
      body⟩

end ChatSpace.Commit
