import ChatSpace.Proofs.History.Agreement
import ChatSpace.Proofs.Space.Printed

namespace ChatSpace.Space

open History Processes Writing

variable {σ : Type} {space : Space} {options : ReadOptions} {before : Bytes}
  {commits : List Commit} {showing : Showing}

structure Shows (options : ReadOptions) (commits : List Commit) (output : Bytes) : Prop where
  entries : options.oneline = false →
    readBack output = commits.map (Entry.ofCommit options.abbreviated)
  ids : options.oneline = false →
    (Fields.split Bytes.newline output).filterMap (Bytes.after? (Utf8.encode "commit ")) =
      commits.map fun c => Utf8.encode (c.oid.shown options.abbreviated)
  lines : options.oneline = true →
    Fields.split Bytes.newline output =
      commits.map (fun c => Utf8.encode (c.oid.shown options.abbreviated ++ " " ++
        Lines.first c.body)) ++ [[]]

theorem shows_historyLines (h : Parsed commits) :
    Shows options commits (Utf8.encode (text (historyLines false options commits))) where
  entries := readBack_historyLines h
  ids := commitLines_historyLines h
  lines := split_historyLines h

structure Written (space : Space) (options : ReadOptions) (before : Bytes) (commits : List Commit)
    (showing : Showing) : Prop where
  shown : showing.shown = commits.length
  sink : ∃ sink, showing.writer = .sink sink ∧ sink.room = none
  written : showing.writer.written =
    before ++ Utf8.encode (text (historyLines space.colour options commits))

theorem text_append (first second : List String) :
    text (first ++ second) = text first ++ text second := by
  simp [text]

theorem showCommit_written (h : Written space options before commits showing) (c : Commit)
    (w : World σ) :
    ∃ showing' said, space.showCommit options c (w, showing) =
        (.proceed, (w.speak said, showing')) ∧
      Written space options before (commits ++ [c]) showing' := by
  obtain ⟨writer, shown⟩ := showing
  obtain ⟨hshown, ⟨sink, hsink, hroom⟩, hwritten⟩ := h
  dsimp only at hshown hsink hwritten
  subst hshown hsink
  generalize hdata : Utf8.encode (text (lines space.colour options (0 < commits.length) c)) = data
  have htaken : sink.writeAll data = (.ok (), { sink with parts := data :: sink.parts }) := by
    rw [Sink.writeAll, hroom]
  have heq : space.showCommit options c (w, ⟨.sink sink, commits.length⟩) =
      (.proceed, (w.speak (sink.taken data),
        ⟨.sink { sink with parts := data :: sink.parts }, commits.length + 1⟩)) := by
    simp only [showCommit, Writer.writeAll, hdata, htaken]
  refine ⟨_, _, heq, by simp, ⟨_, rfl, hroom⟩, ?_⟩
  rw [historyLines_concat, text_append, Utf8.encode_append, ← List.append_assoc, ← hwritten, hdata]
  simp [Writer.written, Sink.written]

def showAll (space : Space) (options : ReadOptions) (commits : List Commit)
    (s : World σ × Showing) : World σ × Showing :=
  commits.foldl (fun s c => (space.showCommit options c s).2) s

theorem showAll_written (h : Written space options before commits showing) (more : List Commit)
    (w : World σ) :
    Written space options before (commits ++ more) (space.showAll options more (w, showing)).2 := by
  induction more generalizing commits showing w with
  | nil => rwa [List.append_nil]
  | cons c more ih =>
      obtain ⟨showing', said, heq, hwritten⟩ := showCommit_written h c w
      have hmore := ih hwritten (w.speak said)
      rw [List.append_assoc] at hmore
      rw [showAll, List.foldl_cons, heq]
      exact hmore

def Followed (space : Space) (options : ReadOptions) (before : Bytes) (showing : Showing)
    (noted : Showing × List (Commit × Answer)) : Prop :=
  noted.1 = showing ∧ ∃ commits, Parsed commits ∧ noted.2 = commits.map (·, .proceed) ∧
    Written space options before commits showing

theorem callbacksAgree_showCommit (space : Space) (options : ReadOptions) (before : Bytes) :
    CallbacksAgree (Beside (Followed space options before))
      (space.showCommit options : Commit → World σ × Showing → _)
      (noting (space.showCommit options)) := by
  rintro oid raw c ⟨w, showing⟩ ⟨_, _, calls⟩ hparse
    ⟨hworld, hshowing, commits, hparsed, hcalls, hwritten⟩
  dsimp only at hworld hshowing hcalls hwritten
  subst hworld hshowing hcalls
  obtain ⟨showing', said, heq, hwritten'⟩ := showCommit_written hwritten c w
  simp only [noting, heq]
  refine ⟨rfl, rfl, rfl, commits ++ [c], ?_, by simp, hwritten'⟩
  intro c' hc'
  rcases List.mem_append.mp hc' with hold | hnew
  · exact hparsed c' hold
  · exact ⟨oid, raw, List.mem_singleton.mp hnew ▸ hparse⟩

def handed (space : Space) (delimiter : Batch.Delimiter) (options : ReadOptions) (s : Session σ) :
    List (Commit × Answer) :=
  ((traverse (space.query delimiter options) (noting (space.showCommit options))).start
    (s.world, ⟨s.writer, 0⟩, [])).2.2.2

theorem writer_start_read (delimiter : Batch.Delimiter) (s : Session σ) :
    ((read space delimiter options).start s).2.writer =
      ((traverse (space.query delimiter options) (space.showCommit options)).start
        (s.world, ⟨s.writer, 0⟩)).2.2.writer := by
  rw [read, Act.start_bind]
  simp only [Act.start_mapError, Act.start_within]
  rcases (traverse (space.query delimiter options) (space.showCommit options)).start
    (s.world, ⟨s.writer, 0⟩) with ⟨_ | _, w, showing⟩ <;> rfl

theorem written_nil (space : Space) (options : ReadOptions) {writer : Writer}
    {sink : Writing.Sink} (hsink : writer = .sink sink) (hroom : sink.room = none) :
    Written space options sink.written [] ⟨writer, 0⟩ := by
  refine ⟨rfl, ⟨sink, hsink, hroom⟩, ?_⟩
  rw [hsink]
  simp [Writer.written, historyLines, text, Utf8.encode]

theorem read_written (space : Space) (delimiter : Batch.Delimiter) (options : ReadOptions)
    (s : Session σ) {sink : Writing.Sink} (hsink : s.writer = .sink sink)
    (hroom : sink.room = none) :
    ∃ commits, Parsed commits ∧
      handed space delimiter options s = commits.map (·, .proceed) ∧
      ((read space delimiter options).start s).2.writer.written =
        sink.written ++ Utf8.encode (text (historyLines space.colour options commits)) := by
  have hnone : Parsed [] := by
    intro c hc
    cases hc
  have hagree := traverse_agree (callbacksAgree_showCommit space options sink.written)
    (space.query delimiter options) (s.world, ⟨s.writer, 0⟩) (s.world, ⟨s.writer, 0⟩, [])
    ⟨rfl, rfl, [], hnone, rfl, written_nil space options hsink hroom⟩
  obtain ⟨-, -, -, commits, hparsed, hcalls, hwritten⟩ := hagree
  rw [writer_start_read]
  exact ⟨commits, hparsed, hcalls, hwritten.written⟩

def forgingCommit : Commit :=
  ⟨.zero, .zero, [], ⟨"A\x0dcommit 1", "", ⟨1, 0⟩⟩, ⟨"A", "", ⟨1, 0⟩⟩,
    "commit 1\n\ncommit 2\nAuthor: B <>\nDate:   \n\n    C"⟩

def forgingContent : Bytes :=
  Commit.layout (Commit.headerLines .zero [] forgingCommit.author forgingCommit.committer [])
    (Utf8.encode forgingCommit.body)

theorem parse_forgingContent : Commit.parse .zero forgingContent = .ok forgingCommit := by
  decide +kernel

end ChatSpace.Space
