import ChatSpace.Proofs.ObjectId.Digits
import ChatSpace.Proofs.Processes.Recording
import ChatSpace.Proofs.Space.Marking
import ChatSpace.Proofs.Text.Blanks
import ChatSpace.Proofs.Text.Lines
import ChatSpace.Space.Message

namespace ChatSpace

open Files Processes Writing

namespace Blank

variable {text core : String}

theorem trims_trim (text : String) : Trims isBlank text.toList (trim text).toList := by
  rw [trim, String.toList_ofList]
  exact .of_dropWhile isBlank text.toList

theorem trim_eq_empty_iff : trim text = "" ↔ ∀ c ∈ text.toList, isBlank c := by
  rw [← String.toList_inj]
  constructor
  · intro h
    obtain ⟨lead, trail, hwhole, hlead, htrail⟩ := (trims_trim text).around
    rw [hwhole, h]
    simpa [or_imp, forall_and] using ⟨hlead, htrail⟩
  · intro h
    have hnothing : Trims isBlank text.toList [] :=
      ⟨⟨text.toList, [], by simp, h, by simp⟩, by simp, by simp⟩
    exact (trims_trim text).unique hnothing

theorem trimEnd_eq_iff : trimEnd text = core ↔
    (∃ trail, text.toList = core.toList ++ trail ∧ ∀ c ∈ trail, isBlank c) ∧
      ∀ c ∈ core.toList.getLast?, isBlank c = false := by
  constructor
  · rintro rfl
    obtain ⟨trail, hback, htrail, hlast⟩ := Trims.exists_dropWhile isBlank text.toList.reverse
    rw [trimEnd, String.toList_ofList]
    refine ⟨⟨trail.reverse, ?_, by simpa using htrail⟩, by simpa using hlast⟩
    rw [← List.reverse_append, ← hback, List.reverse_reverse]
  · rintro ⟨⟨trail, htext, htrail⟩, hlast⟩
    have hcore : core.toList.reverse.dropWhile isBlank = core.toList.reverse :=
      Trims.dropWhile_of_head? (by simpa using hlast)
    rw [trimEnd, htext, List.reverse_append, List.dropWhile_append_of_pos (by simpa using htrail),
      hcore, List.reverse_reverse, String.ofList_toList]

end Blank

namespace ObjectId

variable {stdout digits : Bytes} {id : ObjectId}

structure Names (stdout digits : Bytes) : Prop where
  length_digits : digits.length = 40
  mem_bothCases : ∀ d ∈ digits, d ∈ Hex.bothCases
  trail : ∃ trail : String, (∀ c ∈ trail.toList, Blank.isBlank c) ∧
    stdout = digits ++ Utf8.encode trail

theorem lt_of_mem_bothCases : ∀ d ∈ Hex.bothCases, d.toNat < 128 := by
  decide +kernel

theorem isBlank_of_mem_bothCases : ∀ d ∈ Hex.bothCases, Blank.isBlank (Utf8.charOf d) = false := by
  decide +kernel

theorem Names.exists_decode (h : Names stdout digits) :
    ∃ text, Utf8.decode stdout = .ok text ∧ Utf8.encode (Blank.trimEnd text) = digits := by
  obtain ⟨trail, htrail, rfl⟩ := h.trail
  have hdigits : Utf8.encode (String.ofList (digits.map Utf8.charOf)) = digits :=
    Utf8.encode_map_charOf fun d hd => lt_of_mem_bothCases d (h.mem_bothCases d hd)
  have htrim : Blank.trimEnd (String.ofList (digits.map Utf8.charOf) ++ trail) =
      String.ofList (digits.map Utf8.charOf) := by
    refine Blank.trimEnd_eq_iff.mpr ⟨⟨trail.toList, String.toList_append, htrail⟩, fun c hc => ?_⟩
    rw [String.toList_ofList] at hc
    obtain ⟨d, hd, rfl⟩ := List.mem_map.mp (List.mem_of_getLast? hc)
    exact isBlank_of_mem_bothCases d (h.mem_bothCases d hd)
  refine ⟨String.ofList (digits.map Utf8.charOf) ++ trail, ?_, by rw [htrim, hdigits]⟩
  rw [Utf8.decode_eq_ok_iff, Utf8.encode_append, hdigits]

theorem names_of_decode {text : String} (htext : Utf8.decode stdout = .ok text)
    (hid : ofHex (Utf8.encode (Blank.trimEnd text)) = .ok id) :
    Names stdout (Utf8.encode (Blank.trimEnd text)) := by
  obtain ⟨hlength, hdigits, -⟩ := named_iff.mp (ofHex_eq_ok_iff_named.mp hid)
  obtain ⟨⟨trail, hwhole, htrail⟩, -⟩ := Blank.trimEnd_eq_iff.mp (rfl : Blank.trimEnd text = _)
  refine ⟨hlength, hdigits, String.ofList trail, by simpa using htrail, ?_⟩
  have hsplit : text = Blank.trimEnd text ++ String.ofList trail := by
    rw [← String.toList_inj, String.toList_append, String.toList_ofList, hwhole]
  rw [Utf8.decode_eq_ok_iff.mp htext, ← Utf8.encode_append, ← hsplit]

theorem encode_short (h : Named digits id) :
    Utf8.encode id.short = (digits.take 7).map Hex.lower := by
  have hshort : id.short = String.ofList ((id.encode.take 7).map Utf8.charOf) := by
    rw [short, hex, Hex.text, String.toList_ofList, ← List.map_take]
    rfl
  have hlow : ∀ b ∈ id.encode.take 7, b.toNat < 128 :=
    fun b hb => Hex.lt_of_mem_encode (List.mem_of_mem_take hb)
  rw [hshort, Utf8.encode_map_charOf hlow, h.encode_eq, List.map_take]

end ObjectId

namespace Space

open Session

variable {σ τ : Type} {space : Space} {text : String} {args : List String} {s s' : Session σ}

def postArgs (text : String) : List String := ["commit", "--allow-empty", "--quiet", "-m", text]

def headArgs : List String := ["rev-parse", "--verify", "HEAD"]

def Captures (space : Space) (args : List String) (s : Session σ) (captured : Captured)
    (s' : Session σ) : Prop :=
  ∃ w, (Executor.capture (space.engine args)).start s.world = (.ok captured, w) ∧
    s' = { s with world := w }

def Startable (spec : Spec) (w : World σ) : Prop :=
  ∃ h v, (Executor.spawn spec).start w = (.ok h, v)

def IsCall (args : List String) (s : Session σ) (l : Launch) : Prop :=
  ∃ path, Lookup.find? s.world.plumbing.files s.world.directory s.world.searchPath .engine =
      some path ∧ Command.Conveys path (args.map Utf8.encode) l.args

def calls (s : Session (List Launch × τ)) : List Launch :=
  s.world.state.1

/-- The engine was called once. Its process said this and came to this end. -/
structure Called (args : List String) (s : Session (List Launch × τ)) (l : Launch) (said : Bytes)
    (exit : Exit) (s' : Session (List Launch × τ)) : Prop where
  call : IsCall args s l
  calls : calls s' = calls s ++ [l]
  finished : s'.world.Finished s.world.children.length said exit

section Recorded

variable {machine : Launch → τ → Behaviour × τ} {s : Session (List Launch × τ)}

theorem exists_exits (hprograms : s.world.programs = recording machine)
    (hstart : Startable (space.quiet args) s.world) :
    ∃ exit said s' l, space.Exits args s exit.status s' ∧ Called args s l said exit s' ∧
      s'.world.programs = recording machine := by
  obtain ⟨exit, said, v, l, hrun, hfinished, hlaunches⟩ := Executor.exists_run rfl hstart
  refine ⟨exit, said, { s with world := v }, l, ⟨v, hrun, rfl⟩, ⟨hlaunches.conveys, ?_, hfinished⟩,
    hlaunches.programs.trans hprograms⟩
  rw [calls, hlaunches.state, hprograms]
  rfl

theorem exists_captures (hprograms : s.world.programs = recording machine) (htidy : s.world.Tidy)
    (hfree : s.world.exhausted.answer 0 .pipe = none)
    (hstart : Startable (World.piped (space.engine args) s.world) s.world.withPipe) :
    ∃ exit said s' l, space.Captures args s ⟨exit.status, said⟩ s' ∧
      Called args s l said exit s' := by
  obtain ⟨exit, said, v, l, hcapture, hfinished, hlaunches⟩ :=
    Executor.exists_capture htidy hfree rfl hstart
  refine ⟨exit, said, { s with world := v }, l, ⟨v, hcapture, rfl⟩,
    ⟨hlaunches.conveys, ?_, hfinished⟩⟩
  have hstate := hlaunches.state
  rw [show s.world.withPipe.programs = recording machine from hprograms] at hstate
  rw [calls, hstate]
  rfl

end Recorded

theorem Exits.unique {v v' : Session σ} {code code' : Nat} (h : space.Exits args s code v)
    (h' : space.Exits args s code' v') : code = code' ∧ v = v' := by
  obtain ⟨w, hrun, rfl⟩ := h
  obtain ⟨w', hrun', rfl⟩ := h'
  cases hrun.symm.trans hrun'
  exact ⟨rfl, rfl⟩

theorem Captures.unique {v v' : Session σ} {captured captured' : Captured}
    (h : space.Captures args s captured v) (h' : space.Captures args s captured' v') :
    captured = captured' ∧ v = v' := by
  obtain ⟨w, hrun, rfl⟩ := h
  obtain ⟨w', hrun', rfl⟩ := h'
  cases hrun.symm.trans hrun'
  exact ⟨rfl, rfl⟩

theorem Exits.tidy {code : Nat} (h : space.Exits args s code s') (htidy : s.world.Tidy) :
    s'.world.Tidy := by
  obtain ⟨w, hrun, rfl⟩ := h
  have hmove : s.world.Permits (.call .run (space.quiet args)) := nofun
  have hadvance := (World.advances_perform hmove htidy).1
  have hcall : (Executor.call .run (space.quiet args)).start s.world = (.ok (), w) := by
    rw [Executor.call, Act.start_bind_of_ok hrun]
    rfl
  rwa [World.perform, hcall] at hadvance

def confirm (space : Space) (text : String) : Act (Session σ) CommandError Unit := do
  let head ← space.captureEngine headArgs
  match ObjectId.ofHex (Utf8.encode head) with
  | .ok head => sayLine (confirmation head text)
  | .error e => Act.fail (.objectId e)

theorem start_message_of_blank (h : ∀ c ∈ text.toList, Blank.isBlank c) :
    (space.message text).start s = (.error (.failed .emptyMessage), s) := by
  rw [message]
  simp only [Blank.trim_eq_empty_iff.mpr h, if_true]
  rfl

theorem start_message (h : ∃ c ∈ text.toList, Blank.isBlank c = false) :
    (space.message text).start s =
      (space.runEngine (postArgs (Blank.trim text)) >>= fun _ =>
        space.confirm (Blank.trim text)).start s := by
  obtain ⟨c, hc, hblank⟩ := h
  have hne : Blank.trim text ≠ "" := by
    intro hempty
    rw [Blank.trim_eq_empty_iff.mp hempty c hc] at hblank
    cases hblank
  rw [message]
  simp only [hne, if_false]
  rfl

theorem start_runEngine_of_exits {code : Nat} (h : space.Exits args s code s') (hcode : code ≠ 0) :
    ∃ e, (space.runEngine args).start s = (.error (.failed e), s') := by
  obtain ⟨w, hrun, rfl⟩ := h
  rw [start_runEngine, hrun]
  simp only [if_neg hcode]
  exact ⟨_, rfl⟩

theorem start_captureEngine {captured : Captured} (h : space.Captures args s captured s') :
    (space.captureEngine args).start s =
      (if captured.code ≠ 0 then
          .error (.failed (.exited (space.engine args).commandLine captured.code))
        else
          match Utf8.decode captured.stdout with
          | .ok text => .ok (Blank.trimEnd text)
          | .error fault =>
              .error (.failed (.invalidOutput (space.engine args).commandLine fault)), s') := by
  obtain ⟨w, hcapture, rfl⟩ := h
  have hworld : (onWorld (Executor.capture (space.engine args)) :
      Act (Session σ) CommandError _).start s = (.ok captured, { s with world := w }) := by
    rw [start_onWorld, hcapture]
    rfl
  rw [captureEngine, Act.start_bind_of_ok hworld]
  by_cases hcode : captured.code = 0
  · simp only [hcode, ne_eq, not_true_eq_false, if_false]
    cases Utf8.decode captured.stdout <;> rfl
  · simp only [hcode, ne_eq, not_false_eq_true, if_true]
    rfl

theorem start_confirm_of_names (text : String) {captured : Captured} {digits : Bytes}
    (h : space.Captures headArgs s captured s') (hcode : captured.code = 0)
    (hnames : ObjectId.Names captured.stdout digits) :
    ∃ id, ObjectId.Named digits id ∧
      (space.confirm text).start s = (sayLine (confirmation id text)).start s' := by
  obtain ⟨printed, hprinted, hdigits⟩ := hnames.exists_decode
  obtain ⟨id, hnamed⟩ :=
    ObjectId.exists_named_iff.mpr ⟨hnames.length_digits, hnames.mem_bothCases⟩
  have hhead : (space.captureEngine headArgs).start s = (.ok (Blank.trimEnd printed), s') := by
    rw [start_captureEngine h, hprinted]
    simp [hcode]
  refine ⟨id, hnamed, ?_⟩
  rw [confirm, Act.start_bind_of_ok hhead, hdigits, ObjectId.ofHex_of_named hnamed]

theorem start_confirm_of_not_names (text : String) {captured : Captured}
    (h : space.Captures headArgs s captured s')
    (hnot : captured.code = 0 → ∀ digits, ¬ ObjectId.Names captured.stdout digits) :
    ∃ e, (space.confirm text).start s = (.error (.failed e), s') := by
  have hcapture := start_captureEngine h
  by_cases hcode : captured.code = 0
  · simp only [hcode, ne_eq, not_true_eq_false, if_false] at hcapture
    rcases hprinted : Utf8.decode captured.stdout with fault | printed <;>
      rw [hprinted] at hcapture
    · exact ⟨_, Act.start_bind_of_error hcapture⟩
    · rw [confirm, Act.start_bind_of_ok hcapture]
      rcases hid : ObjectId.ofHex (Utf8.encode (Blank.trimEnd printed)) with e | id
      · exact ⟨_, rfl⟩
      · exact absurd (ObjectId.names_of_decode hprinted hid) (hnot hcode _)
  · simp only [hcode, ne_eq, not_false_eq_true, if_true] at hcapture
    exact ⟨_, Act.start_bind_of_error hcapture⟩

def confirmationBytes (digits : Bytes) (line : String) : Bytes :=
  Utf8.encode "[" ++ (digits.take 7).map Hex.lower ++ Utf8.encode "] " ++ Utf8.encode line ++
    [Bytes.newline]

def Prints (bytes : Bytes) (sink : Writing.Sink) (result : Except (Stop CommandError) Unit)
    (s' : Session σ) : Prop :=
  result = (sink.writeAll bytes).1.mapError (fun e => .failed (.output e)) ∧
    s'.writer = .sink (sink.writeAll bytes).2

def PrintsNothing (sink : Writing.Sink) (result : Except (Stop CommandError) Unit)
    (s' : Session σ) : Prop :=
  (∃ e, result = .error (.failed e)) ∧ s'.writer = .sink sink

theorem encode_confirmation {digits : Bytes} {id : ObjectId} (h : ObjectId.Named digits id) :
    Utf8.encode (confirmation id text ++ "\n") = confirmationBytes digits (Lines.first text) := by
  have hnewline : Utf8.encode "\n" = [Bytes.newline] := rfl
  have htext : confirmation id text = "[" ++ id.short ++ "] " ++ Lines.first text := by
    simp [confirmation]
  rw [htext, Utf8.encode_append, Utf8.encode_append, Utf8.encode_append, Utf8.encode_append,
    ObjectId.encode_short h, hnewline, confirmationBytes]

theorem start_sayLine {sink : Writing.Sink} (hwriter : s.writer = .sink sink) (line : String) :
    let bytes := Utf8.encode (line ++ "\n")
    (sayLine line).start s =
      ((sink.writeAll bytes).1.mapError (fun e => .failed (.output e)),
        { s with
          writer := .sink (sink.writeAll bytes).2
          world := s.world.speak (sink.taken bytes) }) := by
  intro bytes
  rw [sayLine, Act.start_bind_does, say, hwriter]
  simp only [Writer.writeAll]
  rcases (sink.writeAll bytes).1 with e | ⟨⟩ <;> rfl

theorem first_ne_empty (h : ∃ c ∈ text.toList, Blank.isBlank c = false) :
    Lines.first (Blank.trim text) ≠ "" := by
  obtain ⟨c, hc, hblank⟩ := h
  have hne : (Blank.trim text).toList ≠ [] := by
    intro hnil
    have hempty : Blank.trim text = "" := String.toList_inj.mp hnil
    rw [Blank.trim_eq_empty_iff.mp hempty c hc] at hblank
    cases hblank
  have hhead : ∀ c ∈ (Blank.trim text).toList.head?, c ≠ '\n' ∧ c ≠ '\r' := by
    intro c hc
    have hplain := (Blank.trims_trim text).first c hc
    constructor <;> rintro rfl <;> exact absurd hplain (by decide)
  intro hfirst
  apply (Lines.isFirst_first (Blank.trim text)).ne_nil hne hhead
  rw [hfirst]
  rfl

theorem confirm_asks (text : String) {machine : Launch → τ → Behaviour × τ}
    {sink : Writing.Sink} {s : Session (List Launch × τ)}
    (hprograms : s.world.programs = recording machine) (htidy : s.world.Tidy)
    (hfree : s.world.exhausted.answer 0 .pipe = none)
    (hstart : Startable (World.piped (space.engine headArgs) s.world) s.world.withPipe)
    (hwriter : s.writer = .sink sink) :
    let confirmed := (space.confirm text).start s
    ∃ exit printed s' l, space.Captures headArgs s ⟨exit.status, printed⟩ s' ∧
      Called headArgs s l printed exit s' ∧ calls confirmed.2 = calls s ++ [l] ∧
      (∀ digits, exit = .code 0 → ObjectId.Names printed digits →
        Prints (confirmationBytes digits (Lines.first text)) sink confirmed.1 confirmed.2) ∧
      ((exit = .code 0 → ∀ digits, ¬ ObjectId.Names printed digits) →
        PrintsNothing sink confirmed.1 confirmed.2) := by
  intro confirmed
  obtain ⟨exit, printed, s', l, hcaptures, hcalled⟩ :=
    exists_captures hprograms htidy hfree hstart
  have hwriter' : s'.writer = .sink sink := by
    obtain ⟨w, -, rfl⟩ := hcaptures
    exact hwriter
  have hconfirms (digits : Bytes) (hexit : exit = .code 0)
      (hnames : ObjectId.Names printed digits) :
      calls confirmed.2 = calls s ++ [l] ∧
        Prints (confirmationBytes digits (Lines.first text)) sink confirmed.1 confirmed.2 := by
    have hcode := Exit.status_eq_zero_iff.mpr hexit
    obtain ⟨id, hnamed, hsay⟩ := start_confirm_of_names text hcaptures hcode hnames
    rw [show confirmed = _ from hsay, start_sayLine hwriter', encode_confirmation hnamed]
    exact ⟨hcalled.calls, rfl, rfl⟩
  have hrefuses (hnot : exit = .code 0 → ∀ digits, ¬ ObjectId.Names printed digits) :
      calls confirmed.2 = calls s ++ [l] ∧ PrintsNothing sink confirmed.1 confirmed.2 := by
    obtain ⟨e, hfail⟩ := start_confirm_of_not_names text hcaptures
      fun hcode => hnot (Exit.status_eq_zero_iff.mp hcode)
    rw [show confirmed = _ from hfail]
    exact ⟨hcalled.calls, ⟨e, rfl⟩, hwriter'⟩
  refine ⟨exit, printed, s', l, hcaptures, hcalled, ?_,
    fun digits hexit hnames => (hconfirms digits hexit hnames).2, fun hnot => (hrefuses hnot).2⟩
  by_cases hnames : exit = .code 0 ∧ ∃ digits, ObjectId.Names printed digits
  · obtain ⟨hexit, digits, hnames⟩ := hnames
    exact (hconfirms digits hexit hnames).1
  · exact (hrefuses fun hexit digits hdigits => hnames ⟨hexit, digits, hdigits⟩).1

/-- A session in which programs are noted, and every call that posting a message makes starts. -/
structure Ready (space : Space) (machine : Launch → τ → Behaviour × τ) (text : String)
    (sink : Writing.Sink) (s : Session (List Launch × τ)) : Prop where
  programs : s.world.programs = recording machine
  reached : s.world.Reached
  writer : s.writer = .sink sink
  commit : Startable (space.quiet (postArgs (Blank.trim text))) s.world
  revParse : ∀ v, space.Exits (postArgs (Blank.trim text)) s 0 v →
    v.world.exhausted.answer 0 .pipe = none ∧
      Startable (World.piped (space.engine headArgs) v.world) v.world.withPipe

theorem message_posts {machine : Launch → τ → Behaviour × τ} {sink : Writing.Sink}
    {s : Session (List Launch × τ)} (h : space.Ready machine text sink s) :
    let trimmed := Blank.trim text
    let posted := (space.message text).start s
    Trims Blank.isBlank text.toList trimmed.toList ∧
    ((∀ c ∈ text.toList, Blank.isBlank c) → posted = (.error (.failed .emptyMessage), s)) ∧
    ((∃ c ∈ text.toList, Blank.isBlank c = false) →
      ∃ exit said v l, space.Exits (postArgs trimmed) s exit.status v ∧
        Called (postArgs trimmed) s l said exit v ∧
        (exit ≠ .code 0 → calls posted.2 = calls s ++ [l] ∧ PrintsNothing sink posted.1 posted.2) ∧
        (exit = .code 0 →
          ∃ exit' printed u l', space.Captures headArgs v ⟨exit'.status, printed⟩ u ∧
            Called headArgs v l' printed exit' u ∧ calls posted.2 = calls s ++ [l, l'] ∧
            (∀ digits, exit' = .code 0 → ObjectId.Names printed digits →
              ∃ line, Lines.IsFirst trimmed.toList line.toList ∧ line ≠ "" ∧
                Prints (confirmationBytes digits line) sink posted.1 posted.2) ∧
            ((exit' = .code 0 → ∀ digits, ¬ ObjectId.Names printed digits) →
              PrintsNothing sink posted.1 posted.2))) := by
  intro trimmed posted
  refine ⟨Blank.trims_trim text, start_message_of_blank, fun hplain => ?_⟩
  have hposted : posted =
      (space.runEngine (postArgs trimmed) >>= fun _ => space.confirm trimmed).start s :=
    start_message hplain
  obtain ⟨exit, said, v, l, hexits, hcalled, hprograms⟩ := exists_exits h.programs h.commit
  have hwriter : v.writer = .sink sink := by
    obtain ⟨w, -, rfl⟩ := hexits
    exact h.writer
  refine ⟨exit, said, v, l, hexits, hcalled, fun hexit => ?_, fun hexit => ?_⟩
  · obtain ⟨e, hrun⟩ := start_runEngine_of_exits hexits
      fun hcode => hexit (Exit.status_eq_zero_iff.mp hcode)
    rw [hposted, Act.start_bind_of_error hrun]
    exact ⟨hcalled.calls, ⟨e, rfl⟩, hwriter⟩
  · rw [Exit.status_eq_zero_iff.mpr hexit] at hexits
    rw [Act.start_bind_of_ok (runEngine_eq_ok_iff.mpr hexits)] at hposted
    obtain ⟨hfree, hstart⟩ := h.revParse v hexits
    obtain ⟨exit', printed, u, l', hcaptures, hcalled', hcalls', hprints, hnothing⟩ :=
      confirm_asks trimmed hprograms (hexits.tidy h.reached.tidy) hfree hstart hwriter
    rw [← hposted] at hcalls' hprints hnothing
    refine ⟨exit', printed, u, l', hcaptures, hcalled', by simp [hcalls', hcalled.calls],
      fun digits hexit' hnames => ?_, hnothing⟩
    exact ⟨Lines.first trimmed, Lines.isFirst_first trimmed, first_ne_empty hplain,
      hprints digits hexit' hnames⟩

def greeting : String := " hi\r\nthere "

def greetingArgs : List String := postArgs "hi\r\nthere"

def headOutput : Bytes := Utf8.encode "ABCDEF0123456789abcdef0123456789abcdef01\n"

def obliging (launch : Launch) (state : Unit) : Behaviour × Unit :=
  ({ actions :=
      if launch.args.head? = some (Utf8.encode "rev-parse") then [.write .stdout headOutput] else []
     exit := .code 0 }, state)

def greeted : World (List Launch × Unit) :=
  { state := ([], ())
    programs := recording obliging
    environment := ⟨[(Utf8.encode "PATH", Utf8.encode "/bin")]⟩
    plumbing := { files := roomFiles } }

def greetingSession : Session (List Launch × Unit) :=
  { world := greeted
    writer := .sink {} }

theorem trim_greeting : Blank.trim greeting = "hi\r\nthere" := by
  decide

def greetedLaunch (args : List String) : Launch :=
  ⟨Image.nativeMark, args.map Utf8.encode,
    Command.visible (.ofPairs greeted.environment.pairs), room.location, roomFiles⟩

theorem spawn_greeted {w : World (List Launch × Unit)} {d : Disposition}
    (hargs : args = greetingArgs ∨ args = headArgs) (hfiles : w.plumbing.files = roomFiles)
    (henvironment : w.environment = greeted.environment) (hfree : w.exhausted = false)
    (hformats : w.formats = Image.ofContent) :
    let s := (room.engine args).connect .stdout d
    let c := Executor.commandOf w s (Utf8.encode "/bin/git")
    (Executor.spawn s).start w = (.ok ⟨w.children.length, "git"⟩,
      (((w.noteLabel s.streams.label).noteStart c none).addChild c
        (greetedLaunch args)).closeAll s.ends) := by
  intro s c
  have hgit : ∀ here, w.plumbing.files.resolve here (Utf8.encode "/bin/git") = _ :=
    hfiles ▸ resolve_room_git
  have hroom : ∀ here, w.plumbing.files.resolve here room.path = _ := hfiles ▸ resolve_room
  have hspawn := spawn_room args d hgit hroom henvironment hfree hformats
    (by rcases hargs with rfl | rfl <;> decide)
    (by rcases hargs with rfl | rfl <;> decide)
  have hsame : (⟨Image.nativeMark, c.args, Command.visible c.environment, room.location,
      w.plumbing.files⟩ : Launch) = greetedLaunch args := by
    simp only [c, s, Executor.commandOf, henvironment, hfiles]
    rfl
  rwa [← hsame]

def greetedCommand (s : Spec) : Command :=
  Executor.commandOf greeted s (Utf8.encode "/bin/git")

def committing : World (List Launch × Unit) :=
  { greeted with
    state := ([greetedLaunch greetingArgs], ())
    children := [{ ranChild with ended := none }]
    journal :=
      { labels := [ranChild.streams.label]
        starts := [⟨greetedCommand (room.quiet greetingArgs), none⟩] } }

def committed : World (List Launch × Unit) :=
  { committing with
    children := [ranChild]
    journal := { committing.journal with waits := [⟨0, []⟩] } }

def headChild : Child :=
  { streams := { stdout := .provisioned ⟨0, .writing⟩ }
    directory := room.location
    actions := [.write .stdout headOutput]
    exit := .code 0
    broken := .signal Signal.brokenPipe }

def asked : World (List Launch × Unit) :=
  { committed with
    state := ([greetedLaunch greetingArgs, greetedLaunch headArgs], ())
    plumbing := { greeted.plumbing with pipes := [[]] }
    held := [⟨0, .reading⟩]
    children := [ranChild, headChild]
    journal :=
      { committed.journal with
        labels := [ranChild.streams.label, headChild.streams.label]
        starts :=
          [⟨greetedCommand (room.quiet greetingArgs), none⟩,
            ⟨greetedCommand (World.piped (room.engine headArgs) committed), none⟩] } }

def answering : World (List Launch × Unit) :=
  { asked with
    plumbing := { greeted.plumbing with pipes := [headOutput] }
    children := [ranChild, { headChild with actions := [], said := headOutput }] }

def answered : World (List Launch × Unit) :=
  { answering with
    children := [
      ranChild,
      { headChild with actions := [], said := headOutput, ended := some (.code 0) }] }

def confirmed : World (List Launch × Unit) :=
  { answered.refill 0 [] with
    held := []
    journal := { asked.journal with waits := [⟨0, []⟩, ⟨1, []⟩] } }

theorem spawn_committing :
    (Executor.spawn (room.quiet greetingArgs)).start greeted = (.ok ⟨0, "git"⟩, committing) := by
  have hspawn := spawn_greeted (w := greeted) (d := .null) (.inl rfl) rfl rfl rfl rfl
  exact hspawn.trans rfl

theorem exits_greeting :
    room.Exits greetingArgs greetingSession 0 { greetingSession with world := committed } := by
  have hmoved : committing.settle = { committing with children := [ranChild] } := by
    rw [World.settle_of_stepFirst rfl]
    exact World.settle_of_atRest (rfl : World.stepFirst _ _ _ = none)
  have hexit : committing.settle.exit? ⟨0, "git"⟩ = some (.code 0) := by
    rw [hmoved]
    rfl
  refine ⟨committed, (Executor.start_run_of_spawn rfl spawn_committing).trans ?_, rfl⟩
  refine (Executor.start_reap hexit false).trans ?_
  rw [hmoved]
  rfl

theorem spawn_asked :
    (Executor.spawn (World.piped (room.engine headArgs) committed)).start committed.withPipe =
      (.ok ⟨1, "git"⟩, asked) := by
  have hspawn := spawn_greeted (w := committed.withPipe) (d := .provisioned ⟨0, .writing⟩)
    (.inr rfl) rfl rfl rfl rfl
  exact hspawn.trans rfl

theorem receiveAll_asked : asked.receiveAll 0 = (.ok headOutput, answered.refill 0 []) := by
  have hprints : World.stepFirst asked.ends asked.plumbing asked.children =
      some (answering.children, answering.plumbing) := rfl
  have hends : World.stepFirst answering.ends answering.plumbing answering.children =
      some (answered.children, answered.plumbing) := rfl
  have hmoved : asked.settle = answered := by
    rw [World.settle_of_stepFirst hprints]
    refine (World.settle_of_stepFirst hends).trans ?_
    exact World.settle_of_atRest (rfl : World.stepFirst _ _ _ = none)
  exact World.receiveAll_of_settled rfl hmoved rfl (by decide)
    (rfl : World.stepFirst _ _ _ = none) (by decide)

theorem captures_greeting :
    room.Captures headArgs { greetingSession with world := committed } ⟨0, headOutput⟩
      { greetingSession with world := confirmed } := by
  have hopen : (Executor.openPipe : Act _ ExecError Nat).start committed =
      (.ok 0, committed.withPipe) := rfl
  have hrest : ((answered.refill 0 []).close ⟨0, .reading⟩).AtRest :=
    (rfl : World.stepFirst _ _ _ = none)
  have hexit : ((answered.refill 0 []).close ⟨0, .reading⟩).settle.exit? ⟨1, "git"⟩ =
      some (.code 0) := by
    rw [World.settle_of_atRest hrest]
    rfl
  have hfinish : (Executor.finish ⟨1, "git"⟩).start
      ((asked.receiveAll 0).2.close ⟨0, .reading⟩) = (.ok 0, confirmed) := by
    rw [receiveAll_asked]
    refine (Executor.start_reap hexit false).trans ?_
    rw [World.settle_of_atRest hrest]
    rfl
  exact ⟨confirmed, World.start_capture rfl
    (.collected hopen spawn_asked (congrArg Prod.fst receiveAll_asked) hfinish), rfl⟩

theorem names_headOutput : ObjectId.Names headOutput (headOutput.take 40) := by
  refine ⟨by decide +kernel, by decide +kernel, String.ofList ['\n'], ?_, by decide +kernel⟩
  intro c hc
  rw [String.toList_ofList] at hc
  obtain rfl := List.mem_singleton.mp hc
  rfl

theorem ready_greeting : room.Ready obliging greeting {} greetingSession := by
  refine ⟨rfl, ⟨greeted, ⟨rfl, rfl, rfl⟩, .refl⟩, rfl, ?_, ?_⟩
  · rw [trim_greeting]
    exact ⟨_, _, spawn_committing⟩
  · rw [trim_greeting]
    intro v hexits
    obtain ⟨-, rfl⟩ := hexits.unique exits_greeting
    exact ⟨rfl, _, _, spawn_asked⟩

theorem message_posts_greeting :
    room.Ready obliging greeting {} greetingSession ∧
      let posted := (room.message greeting).start greetingSession
      posted.1 = .ok () ∧ posted.2.writer.written = Utf8.encode "[abcdef0] hi\n" ∧
        ∃ l l', calls posted.2 = [l, l'] ∧ IsCall greetingArgs greetingSession l := by
  refine ⟨ready_greeting, ?_⟩
  intro posted
  obtain ⟨-, -, hposts⟩ := message_posts ready_greeting
  obtain ⟨exit, said, v, l, hexits, hcalled, -, hzero⟩ :=
    hposts ⟨'h', by decide, by decide⟩
  rw [trim_greeting] at hexits hcalled
  obtain ⟨hcode, rfl⟩ := hexits.unique exits_greeting
  obtain ⟨exit', printed, u, l', hcaptures, -, hcalls, hconfirms, -⟩ :=
    hzero (Exit.status_eq_zero_iff.mp hcode)
  obtain ⟨hsame, rfl⟩ := hcaptures.unique captures_greeting
  obtain ⟨hcode', rfl⟩ := Captured.mk.inj hsame
  obtain ⟨line, hline, -, hresult, hwriter⟩ :=
    hconfirms _ (Exit.status_eq_zero_iff.mp hcode') names_headOutput
  have hfirst : Lines.IsFirst (['h', 'i'] ++ '\r' :: '\n' :: "there".toList) ['h', 'i'] :=
    .returned (by decide)
  rw [trim_greeting] at hline
  obtain rfl : line = "hi" := String.toList_inj.mp (hline.unique hfirst)
  refine ⟨hresult, ?_, l, l', hcalls, hcalled.call⟩
  rw [hwriter]
  decide

end Space

end ChatSpace
