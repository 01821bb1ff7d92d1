import ChatSpace.Proofs.Processes.Feeding
import ChatSpace.Proofs.Writing.Feed
import ChatSpace.Writing.Pager

namespace ChatSpace.Writing

open Processes

variable {σ : Type} {u v w : World σ} {pipe : Nat} {h : Handle}

structure Channel.Carries {S : Type} (c : Channel S) (view : S → World σ) (pipe : Nat)
    (w : World σ) : Prop where
  obeys : c.Obeys fun fed s => Fed pipe w fed (view s)
  close : ∀ s, view (c.close s) = (view s).close ⟨pipe, .writing⟩

namespace Pager

def answer (p : Pager) (w : World σ) : Request → Except WriteError Unit × Pager × World σ
  | .write chunk => p.writeAll chunk w
  | .flush => p.flush w

def serve (p : Pager) : List Request → World σ → List (Except WriteError Unit) × Pager × World σ
  | [], w => ([], p, w)
  | request :: requests, w =>
      match p.answer w request with
      | (result, p, w) =>
          match p.serve requests w with
          | (results, p, w) => (result :: results, p, w)

def conclude (p : Pager) : Act (World σ) ExecError Nat := do
  let (code, rest) ← p.finish
  rest.drop
  pure code

theorem map_map_unit {ε α : Type} (result : Except ε Unit) (f : Unit → α) :
    (result.map f).map (fun _ => ()) = result := by
  cases result <;> rfl

theorem answer_keep (pipe : Nat) (handle : Option Handle) (isOpen : Bool) (w : World σ)
    (request : Request) :
    (Pager.keep ⟨some pipe, handle⟩ isOpen).answer w request =
      match (channel pipe).reply isOpen w request with
      | (result, isOpen', w') =>
          (result.map fun _ => (), Pager.keep ⟨some pipe, handle⟩ isOpen', w') := by
  cases isOpen with
  | true =>
      cases request with
      | write chunk => simp only [Channel.reply, map_map_unit]; rfl
      | flush => simp only [Channel.reply, map_map_unit]; rfl
  | false =>
      cases request with
      | write chunk => simp only [Channel.reply, Channel.writeAll_closed, map_map_unit]; rfl
      | flush => simp only [Channel.reply, map_map_unit]; rfl

theorem serve_keep (pipe : Nat) (handle : Option Handle) (isOpen : Bool) (requests : List Request)
    (w : World σ) :
    (Pager.keep ⟨some pipe, handle⟩ isOpen).serve requests w =
      match (channel pipe).serve isOpen requests w with
      | (results, isOpen', w') =>
          (results.map (·.map fun _ => ()), Pager.keep ⟨some pipe, handle⟩ isOpen', w') := by
  induction requests generalizing isOpen w with
  | nil => rfl
  | cons request requests ih =>
      simp only [serve, Channel.serve]
      rw [answer_keep]
      simp only
      rw [ih]
      rfl

theorem carries_channel (hattached : w.Attached pipe h) :
    (channel pipe : Channel (World σ)).Carries id pipe w where
  obeys :=
    { send := by
        intro data v fed hd hfed
        obtain ⟨taken, htaken, hlast, hanswer⟩ := (hattached.uses hfed.uses).sendFrom 0 data
        rcases hanswer with ⟨hanswer, hpos⟩ | ⟨hanswer, -, rfl⟩
        · rw [Nat.zero_add] at hanswer hpos
          exact .inl ⟨taken, List.length_pos_iff.mp (hpos hd), htaken, hanswer, hfed.trans hlast⟩
        · have hsame := hfed.trans hlast
          rw [List.append_nil] at hsame
          exact .inr ⟨hanswer, hsame⟩
      flushOnce := fun hfed => ⟨hfed, .inl ⟨0, rfl⟩⟩ }
  close _ := rfl

theorem streams_spec (command : String) (pipe : Nat) (environment : Variables) :
    (spec command pipe environment).streams = .feeding pipe := by
  unfold spec
  split <;> rfl

theorem start_spawn_of_free (command : String) (hfree : w.exhausted.answer 0 .pipe = none)
    (hstart : (Executor.spawn (spec command w.plumbing.pipes.length w.environment)).start
      w.withPipe = (.ok h, v)) :
    (spawn command).start w = (.ok ⟨some w.plumbing.pipes.length, some h⟩, v) := by
  rw [spawn, Act.start_bind_of_ok (World.start_openPipe hfree),
    Act.start_bind_of_ok (Act.start_current _)]
  exact Act.start_bind_of_ok (Act.start_onFailure_of_ok hstart)

theorem attached_of_spawn {command : String} {p : Pager} (hsound : w.Sound)
    (hspawn : (spawn command).start w = (.ok p, v)) :
    ∃ pipe handle, p = ⟨some pipe, some handle⟩ ∧ v.Attached pipe handle ∧
      v.content? pipe = some [] ∧ v.journal.waits = w.journal.waits := by
  obtain ⟨pipe, u, hopen, hrest⟩ := Act.start_bind_eq_ok hspawn
  obtain ⟨rfl, rfl⟩ := Executor.openPipe_eq_ok hopen
  rw [Act.start_bind_of_ok (Act.start_current _)] at hrest
  obtain ⟨handle, v', hstart, hpure⟩ := Act.start_bind_eq_ok hrest
  cases hpure
  have hchild := Act.start_of_onFailure_eq_ok hstart
  have hspawned := Executor.spawned_of_ok hchild
  have hplumbing : v.plumbing = w.withPipe.plumbing :=
    (congrArg (·.2.plumbing) hchild).symm.trans (Executor.plumbing_spawn _ _)
  have hstreams := streams_spec command w.plumbing.pipes.length w.withPipe.environment
  refine ⟨_, handle, rfl, ⟨?_, ?_, hspawned.copies.trans hsound.copies, ?_, ?_⟩, ?_,
    hspawned.waits⟩
  · rw [hplumbing]
    simp [World.withPipe]
  · rw [hspawned.held]
    intro hheld
    have hgiven : ⟨w.plumbing.pipes.length, .reading⟩ ∈
        (spec command w.plumbing.pipes.length w.withPipe.environment).ends := by
      rw [Spec.ends, hstreams]
      exact List.mem_singleton_self _
    exact of_decide_eq_true (List.mem_filter.mp hheld).2 hgiven
  · rw [hspawned.wiring, hspawned.handle, hstreams]
    exact List.getElem?_concat_length
  · rw [hspawned.wiring, hstreams]
    intro s hs e he hpipe
    rcases List.mem_append.mp hs with hold | hnew
    · have hlt := hsound.wired s hold e he
      omega
    · exact List.mem_singleton.mp hnew
  · rw [World.content?, hplumbing]
    exact List.getElem?_concat_length

def parting (isOpen : Bool) (pipe : Nat) (w : World σ) : World σ :=
  if isOpen then w.close ⟨pipe, .writing⟩ else w

theorem start_finish {isOpen : Bool} {code : Nat}
    (hfinish : (Executor.finish h).start (parting isOpen pipe u) = (.ok code, v)) :
    (finish (Pager.keep ⟨some pipe, some h⟩ isOpen)).start u = (.ok (code, ⟨none, none⟩), v) := by
  have hlast : (Executor.finish h >>= fun code => pure (code, (⟨none, none⟩ : Pager))).start
      (parting isOpen pipe u) = (.ok (code, ⟨none, none⟩), v) :=
    Act.start_bind_of_ok hfinish
  cases isOpen with
  | true => exact hlast
  | false => exact hlast

theorem start_conclude {isOpen : Bool} {code : Nat}
    (hfinish : (Executor.finish h).start (parting isOpen pipe u) = (.ok code, v)) :
    (conclude (Pager.keep ⟨some pipe, some h⟩ isOpen)).start u = (.ok code, v) := by
  rw [conclude, Act.start_bind_of_ok (start_finish hfinish)]
  rfl

theorem finish_parting {isOpen : Bool} (hattached : u.Attached pipe h)
    (hclosed : isOpen = false → ⟨pipe, .writing⟩ ∉ u.held) :
    ∃ exit v held, (Executor.finish h).start (parting isOpen pipe u) = (.ok exit.status, v) ∧
      v.exit? h = some exit ∧ v.journal.waits = u.journal.waits ++ [⟨h.child, held⟩] ∧
      ⟨pipe, .writing⟩ ∉ held := by
  have hgone : ⟨pipe, .writing⟩ ∉ (parting isOpen pipe u).held := by
    cases isOpen with
    | true => exact fun hheld => of_decide_eq_true (List.mem_filter.mp hheld).2 rfl
    | false => exact hclosed rfl
  have hparted : (parting isOpen pipe u).Attached pipe h := by
    unfold parting
    split
    · exact hattached.close _
    · exact hattached
  have hjournal : (parting isOpen pipe u).journal = u.journal := by
    unfold parting
    split <;> rfl
  obtain ⟨exit, hexit⟩ := hparted.ended hgone
  refine ⟨exit, _, _, Executor.start_reap hexit false, hexit, ?_, hgone⟩
  rw [hparted.copies, List.append_nil, hjournal]

theorem exists_fed {S : Type} {c : Channel S} {view : S → World σ} (hc : c.Carries view pipe w)
    {wanted : Bytes} {isOpen : Bool} {s : S} {events : List Event}
    (hkept : Channel.Kept c (fun fed s => Fed pipe w fed (view s)) wanted isOpen (s, events)) :
    ∃ u, Fed pipe w (received events) u ∧
      view s = if isOpen then u else u.close ⟨pipe, .writing⟩ := by
  cases hkept with
  | connected _ hreceived hfed => exact ⟨_, hreceived ▸ hfed, rfl⟩
  | disconnected _ hlost _ hfed =>
      rw [received_append_lost hlost]
      exact ⟨_, hfed, hc.close _⟩

theorem spawn_faithful {command : String} {p : Pager} (hw : w.Reached)
    (hspawn : (spawn command).start w = (.ok p, v)) :
    ∃ pipe handle, p = ⟨some pipe, some handle⟩ ∧ (channel pipe).Carries id pipe v ∧
      (∀ requests,
        let served := (channel pipe).serve true requests v
        p.serve requests v =
          (served.1.map (·.map fun _ => ()), p.keep served.2.1, served.2.2)) ∧
      ∀ {S : Type} (c : Channel S) (view : S → World σ) (s : S), c.Carries view pipe v →
        view s = v → ∀ requests, ∃ isOpen t events,
          c.noted.serve true requests (s, []) =
            (requests.map fun request => .ok request.bytes.length, isOpen, t, events) ∧
          c.serve true requests s =
            (requests.map fun request => .ok request.bytes.length, isOpen, t) ∧
          Faithful requests isOpen events ∧
          (∃ read rest, received events = read ++ rest ∧
            (view t).content? pipe = some rest) ∧
          ∃ exit u held, (p.keep isOpen).conclude.start (view t) = (.ok exit.status, u) ∧
            u.exit? handle = some exit ∧
            u.journal.waits = w.journal.waits ++ [⟨handle.child, held⟩] ∧
            ⟨pipe, .writing⟩ ∉ held := by
  obtain ⟨pipe, handle, rfl, hattached, hempty, hwaits⟩ :=
    attached_of_spawn hw.tidy.toSound hspawn
  refine ⟨pipe, handle, rfl, carries_channel hattached,
    fun requests => serve_keep pipe (some handle) true requests v, ?_⟩
  intro S c view s hc hview requests
  have hfirst : Channel.Kept c (fun fed s => Fed pipe v fed (view s)) [] true (s, []) :=
    .connected nofun rfl (hview ▸ .done)
  obtain ⟨isOpen, ⟨t, events⟩, hserve, hkept⟩ := hfirst.serve hc.obeys requests
  obtain ⟨u, hfed, hlast⟩ := exists_fed hc hkept
  have hview' : (view t).Attached pipe handle ∧ (view t).content? pipe = u.content? pipe ∧
      (view t).journal = v.journal ∧ (isOpen = false → ⟨pipe, .writing⟩ ∉ (view t).held) := by
    have hu := hattached.uses hfed.uses
    rw [hlast]
    cases isOpen with
    | true => exact ⟨hu, rfl, hfed.journal, nofun⟩
    | false => exact ⟨hu.close _, rfl, hfed.journal, fun _ => by simp [World.close]⟩
  obtain ⟨hparted, hcontent, hjournal, hclosed⟩ := hview'
  obtain ⟨exit, z, held, hfinish, hexit, hwaited, hgone⟩ := finish_parting hparted hclosed
  refine ⟨isOpen, t, events, hserve, ?_, hkept.faithful, ?_, exit, z, held,
    start_conclude hfinish, hexit, ?_, hgone⟩
  · exact (Channel.serve_eq_forget c true requests (s, [])).trans
      (congrArg Channel.forget hserve)
  · obtain ⟨rest, hrest, read, hread⟩ := hfed.fifo hattached.writing_not_mem hempty
    exact ⟨read, rest, hread.symm, hcontent.trans hrest⟩
  · rw [hwaited, hjournal, hwaits]

def fitful (pipe : Nat) : Channel (World σ × List Nat) where
  send data s :=
    match s.2, s.1.content? pipe with
    | n :: rest, some bytes =>
        (.accepted (data.take (n + 1)).length, s.1.refill pipe (bytes ++ data.take (n + 1)), rest)
    | _, _ => (.brokenPipe, s)
  flushOnce s := (if s.2.isEmpty then .brokenPipe else .accepted 0, s)
  close s := (s.1.close ⟨pipe, .writing⟩, s.2)

theorem carries_fitful (pipe : Nat) (w : World σ) : (fitful pipe).Carries Prod.fst pipe w where
  obeys :=
    { send := by
        rintro data ⟨v, numbers⟩ fed hd hfed
        simp only [fitful]
        split
        · next n rest bytes hcontent =>
          refine .inl ⟨data.take (n + 1), ?_, List.take_prefix _ data, rfl, ?_⟩
          · rw [ne_eq, List.take_eq_nil_iff]
            exact not_or.mpr ⟨Nat.succ_ne_zero n, hd⟩
          · exact hfed.trans (.append hcontent _)
        · exact .inr ⟨rfl, hfed⟩
      flushOnce := by
        rintro ⟨v, numbers⟩ fed hfed
        refine ⟨hfed, ?_⟩
        simp only [fitful]
        split
        · exact .inr rfl
        · exact .inl ⟨0, rfl⟩ }
  close _ := rfl

def quitWorld : World Unit :=
  { state := ()
    programs := fun _ s => ({ actions := [.transform (some 2) .stdout id], exit := .code 7 }, s)
    environment := [(Utf8.encode "PATH", Utf8.encode "/bin")]
    plumbing :=
      { files := .ofList [([Utf8.encode "bin", Utf8.encode "sh"], .file 0o755 Image.nativeMark)] } }

def quitPager : Pager :=
  ⟨some 0, some ⟨0, "sh"⟩⟩

def quitCommand : Command :=
  Executor.commandOf quitWorld (spec "less" 0 quitWorld.environment) (Utf8.encode "/bin/sh")

def quitStart : World Unit :=
  { quitWorld with
    plumbing := { quitWorld.plumbing with pipes := [[]] }
    held := [⟨0, .writing⟩]
    children := [
      { streams := .feeding 0
        directory := []
        actions := [.transform (some 2) .stdout id]
        exit := .code 7
        broken := .signal Signal.brokenPipe }]
    journal := { labels := [(Streams.feeding 0).label], starts := [⟨quitCommand, none⟩] } }

theorem resolve_quit (here : Files.Location) :
    quitWorld.plumbing.files.resolve here (Utf8.encode "/bin/sh") =
      .ok ([Utf8.encode "bin", Utf8.encode "sh"], .file 0o755 Image.nativeMark) :=
  Files.Tree.resolve_of_descend here (by decide) rfl (by simp)

theorem spawn_quit : (spawn "less").start quitWorld = (.ok quitPager, quitStart) := by
  have hpath : Lookup.find? quitWorld.withPipe.plumbing.files quitWorld.withPipe.directory
      quitWorld.withPipe.searchPath (spec "less" 0 quitWorld.withPipe.environment).program =
        some (Utf8.encode "/bin/sh") := by
    exact Lookup.search_of_head rfl (resolve_quit []) rfl
  have hstart := Executor.spawn_of_native rfl hpath (by decide) (by decide)
    (by decide) rfl (resolve_quit []) rfl rfl
  rw [start_spawn_of_free (w := quitWorld) "less" rfl hstart]
  rfl

def quitRequests : List Request :=
  [.write (Utf8.encode "abc"), .flush, .write (Utf8.encode "de")]

def quitEvents : List Event :=
  [.sent (Utf8.encode "abc") (.accepted 1), .sent (Utf8.encode "bc") (.accepted 1),
    .sent (Utf8.encode "c") .brokenPipe, .closed]

def quitEnd : World Unit :=
  (quitStart.refill 0 (Utf8.encode "ab")).close ⟨0, .writing⟩

theorem serve_quit : (fitful 0).noted.serve true quitRequests ((quitStart, [0, 0]), []) =
    ([.ok 3, .ok 0, .ok 2], false, (quitEnd, []), quitEvents) := by
  with_unfolding_all rfl

def quitLast : World Unit :=
  { quitEnd with
    plumbing := { quitEnd.plumbing with pipes := [[]], output := Utf8.encode "ab" }
    children := quitStart.children.map fun c =>
      { c with actions := [], said := Utf8.encode "ab", ended := some c.exit } }

theorem settle_quitEnd : quitEnd.settle = quitLast := by
  have hrest : quitLast.AtRest := (rfl : World.stepFirst _ _ _ = none)
  rw [World.settle_of_stepFirst rfl, World.settle_of_stepFirst rfl, World.settle_of_stepFirst rfl,
    World.settle_of_stepFirst rfl]
  exact World.settle_of_atRest hrest

theorem spawn_faithful_quit :
    quitWorld.Reached ∧ (spawn "less").start quitWorld = (.ok quitPager, quitStart) ∧
      (fitful 0).Carries Prod.fst 0 quitStart ∧
      (fitful 0).noted.serve true quitRequests ((quitStart, [0, 0]), []) =
        ([.ok 3, .ok 0, .ok 2], false, (quitEnd, []), quitEvents) ∧
      received quitEvents = Utf8.encode "ab" ∧ Faithful quitRequests false quitEvents ∧
      ∃ u held, (quitPager.keep false).conclude.start quitEnd = (.ok 7, u) ∧
        u.journal.waits = [⟨0, held⟩] ∧ ⟨0, .writing⟩ ∉ held := by
  have hreached : quitWorld.Reached := ⟨quitWorld, ⟨rfl, rfl, rfl⟩, .refl⟩
  have hcarries : (fitful 0).Carries Prod.fst 0 quitStart := carries_fitful 0 quitStart
  obtain ⟨pipe, handle, hpager, -, -, hall⟩ := spawn_faithful hreached spawn_quit
  obtain ⟨⟨⟩, ⟨⟩⟩ := Pager.mk.inj hpager
  obtain ⟨isOpen, t, events, hserve, -, hfaithful, -, exit, u, held, hconclude, -, hwaits, hgone⟩ :=
    hall (fitful 0) Prod.fst (quitStart, [0, 0]) hcarries rfl quitRequests
  have hsame := serve_quit.symm.trans hserve
  simp only [Prod.mk.injEq] at hsame
  obtain ⟨-, rfl, rfl, rfl⟩ := hsame
  have hexit : quitEnd.settle.exit? ⟨0, "sh"⟩ = some (.code 7) := by
    rw [settle_quitEnd]
    rfl
  have hcode : (conclude (quitPager.keep false)).start quitEnd = (.ok 7, _) :=
    start_conclude (Executor.start_reap hexit false)
  have hstatus : exit.status = 7 :=
    Except.ok.inj (congrArg Prod.fst (hconclude.symm.trans hcode))
  rw [hstatus] at hconclude
  exact ⟨hreached, spawn_quit, hcarries, serve_quit, by decide, hfaithful, u, held, hconclude,
    hwaits, hgone⟩

end Pager

end ChatSpace.Writing
