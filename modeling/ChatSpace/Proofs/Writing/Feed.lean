import ChatSpace.Writing.Feed

namespace ChatSpace.Writing

open Processes

inductive Request where
  | write (chunk : Bytes)
  | flush
deriving DecidableEq, Repr

def Request.bytes : Request → Bytes
  | .write chunk => chunk
  | .flush => []

def asked (requests : List Request) : Bytes :=
  requests.flatMap Request.bytes

inductive Event where
  | sent (data : Bytes) (answer : Sent)
  | flushed (answer : Sent)
  | closed
deriving DecidableEq, Repr

namespace Event

def bytes : Event → Bytes
  | .sent data (.accepted n) => data.take n
  | _ => []

def isHeard : Event → Bool
  | .sent _ (.accepted _) => true
  | .flushed (.accepted _) => true
  | _ => false

def isLost : Event → Bool
  | .sent _ .brokenPipe => true
  | .flushed .brokenPipe => true
  | _ => false

variable {e : Event}

theorem isLost_of_isHeard (h : e.isHeard) : e.isLost = false := by
  cases e with
  | sent data answer =>
      cases answer with
      | accepted n => rfl
      | brokenPipe => cases h
      | failed error => rfl
  | flushed answer =>
      cases answer with
      | accepted n => rfl
      | brokenPipe => cases h
      | failed error => rfl
  | closed => rfl

theorem bytes_of_isLost (h : e.isLost) : e.bytes = [] := by
  cases e with
  | sent data answer =>
      cases answer with
      | accepted n => cases h
      | brokenPipe => rfl
      | failed error => rfl
  | flushed answer => rfl
  | closed => rfl

end Event

def received (events : List Event) : Bytes :=
  events.flatMap Event.bytes

theorem received_append_lost {events : List Event} {last : Event} (h : last.isLost) :
    received (events ++ [last, .closed]) = received events := by
  have hclosed : Event.closed.bytes = [] := rfl
  simp [received, Event.bytes_of_isLost h, hclosed]

theorem received_concat (events : List Event) (e : Event) :
    received (events ++ [e]) = received events ++ e.bytes := by
  simp [received]

structure Faithful (requests : List Request) (isOpen : Bool) (events : List Event) : Prop where
  received_prefix : received events <+: asked requests
  received_eq : (∀ e ∈ events, ¬e.isLost) → received events = asked requests
  isOpen_iff : isOpen = true ↔ ∀ e ∈ events, ¬e.isLost
  closed_of_isLost : ∀ {before lost after}, events = before ++ lost :: after → lost.isLost →
    after = [.closed]

namespace Channel

variable {S : Type} {c : Channel S} {isOpen : Bool} {data : Bytes} {s : S}

def noted (c : Channel S) : Channel (S × List Event) where
  send data s := ((c.send data s.1).1, (c.send data s.1).2, s.2 ++ [.sent data (c.send data s.1).1])
  flushOnce s := ((c.flushOnce s.1).1, (c.flushOnce s.1).2, s.2 ++ [.flushed (c.flushOnce s.1).1])
  close s := (c.close s.1, s.2 ++ [.closed])

def count (c : Channel S) (isOpen : Bool) (data : Bytes) (s : S) : Nat :=
  if hd : data = [] then 0
  else
    match c.write isOpen data s with
    | (.error _, _, _) => 0
    | (.ok 0, _, _) => 0
    | (.ok (n + 1), isOpen, s) =>
        have := List.length_pos_iff.mpr hd
        n + 1 + c.count isOpen (data.drop (n + 1)) s
termination_by data.length
decreasing_by
  simp only [List.length_drop]
  omega

def reply (c : Channel S) (isOpen : Bool) (s : S) : Request → Except WriteError Nat × Bool × S
  | .write chunk =>
      let taken := c.writeAll isOpen chunk s
      (taken.1.map fun _ => c.count isOpen chunk s, taken.2)
  | .flush =>
      let flushed := c.flush isOpen s
      (flushed.1.map fun _ => 0, flushed.2)

def serve (c : Channel S) (isOpen : Bool) : List Request → S →
    List (Except WriteError Nat) × Bool × S
  | [], s => ([], isOpen, s)
  | request :: requests, s =>
      match c.reply isOpen s request with
      | (result, isOpen, s) =>
          match c.serve isOpen requests s with
          | (results, isOpen, s) => (result :: results, isOpen, s)

theorem writeAll_of_write {n : Nat} {isOpen' : Bool} {t : S} (hd : data ≠ [])
    (h : c.write isOpen data s = (.ok n, isOpen', t)) (hn : 0 < n) :
    c.writeAll isOpen data s = c.writeAll isOpen' (data.drop n) t ∧
      c.count isOpen data s = n + c.count isOpen' (data.drop n) t := by
  cases n with
  | zero => exact absurd hn (Nat.lt_irrefl 0)
  | succ n =>
      constructor
      · rw [writeAll, dif_neg hd, h]
      · rw [count, dif_neg hd, h]

def forget {α : Type} (result : α × Bool × S × List Event) : α × Bool × S :=
  (result.1, result.2.1, result.2.2.1)

theorem write_eq_forget (c : Channel S) (isOpen : Bool) (data : Bytes) (noting : S × List Event) :
    c.write isOpen data noting.1 = forget (c.noted.write isOpen data noting) := by
  simp only [Channel.write, noted]
  split
  · split <;> next hsend => rw [hsend]; rfl
  · rfl

theorem flush_eq_forget (c : Channel S) (isOpen : Bool) (noting : S × List Event) :
    c.flush isOpen noting.1 = forget (c.noted.flush isOpen noting) := by
  simp only [Channel.flush, noted]
  split
  · split <;> next hflush => rw [hflush]; rfl
  · rfl

theorem writeAll_eq_forget (c : Channel S) (isOpen : Bool) (data : Bytes)
    (noting : S × List Event) :
    c.writeAll isOpen data noting.1 = forget (c.noted.writeAll isOpen data noting) := by
  fun_induction Channel.writeAll c.noted isOpen data noting with
  | case1 isOpen noting => rw [Channel.writeAll, dif_pos rfl]; rfl
  | case2 isOpen data noting hd e isOpen' noting' hwrite =>
      rw [Channel.writeAll, dif_neg hd, write_eq_forget, hwrite]
      rfl
  | case3 isOpen data noting hd isOpen' noting' hwrite =>
      rw [Channel.writeAll, dif_neg hd, write_eq_forget, hwrite]
      rfl
  | case4 isOpen data noting hd n isOpen' noting' hwrite hpos ih =>
      rw [Channel.writeAll, dif_neg hd, write_eq_forget, hwrite]
      exact ih

theorem count_eq_count_noted (c : Channel S) (isOpen : Bool) (data : Bytes)
    (noting : S × List Event) :
    c.count isOpen data noting.1 = c.noted.count isOpen data noting := by
  fun_induction count c.noted isOpen data noting with
  | case1 isOpen noting => rw [count, dif_pos rfl]
  | case2 isOpen data noting hd e isOpen' noting' hwrite =>
      rw [count, dif_neg hd, write_eq_forget, hwrite]
      rfl
  | case3 isOpen data noting hd isOpen' noting' hwrite =>
      rw [count, dif_neg hd, write_eq_forget, hwrite]
      rfl
  | case4 isOpen data noting hd n isOpen' noting' hwrite hpos ih =>
      rw [count, dif_neg hd, write_eq_forget, hwrite]
      exact congrArg (n + 1 + ·) ih

theorem reply_eq_forget (c : Channel S) (isOpen : Bool) (noting : S × List Event)
    (request : Request) :
    c.reply isOpen noting.1 request = forget (c.noted.reply isOpen noting request) := by
  cases request with
  | write chunk =>
      simp only [reply]
      rw [writeAll_eq_forget, count_eq_count_noted]
      rfl
  | flush =>
      simp only [reply]
      rw [flush_eq_forget]
      rfl

theorem serve_eq_forget (c : Channel S) (isOpen : Bool) (requests : List Request)
    (noting : S × List Event) :
    c.serve isOpen requests noting.1 = forget (c.noted.serve isOpen requests noting) := by
  induction requests generalizing isOpen noting with
  | nil => rfl
  | cons request requests ih =>
      simp only [Channel.serve]
      rw [reply_eq_forget]
      simp only [forget]
      rw [ih]
      rfl

/-- The channel takes any part of what it is sent, or is broken. `R bytes s` says that its state may
be `s` when these bytes got through. -/
structure Obeys (c : Channel S) (R : Bytes → S → Prop) : Prop where
  send : ∀ {data s fed}, data ≠ [] → R fed s →
    (∃ taken, taken ≠ [] ∧ taken <+: data ∧ (c.send data s).1 = .accepted taken.length ∧
      R (fed ++ taken) (c.send data s).2) ∨
    (c.send data s).1 = .brokenPipe ∧ R fed (c.send data s).2
  flushOnce : ∀ {s fed}, R fed s → R fed (c.flushOnce s).2 ∧
    ((∃ n, (c.flushOnce s).1 = .accepted n) ∨ (c.flushOnce s).1 = .brokenPipe)

/-- What has become of the bytes that were to be written. Once the channel was lost, it was closed,
and nothing was sent after that. -/
inductive Kept (c : Channel S) (R : Bytes → S → Prop) (wanted : Bytes) :
    Bool → S × List Event → Prop
  | connected {s events} : (∀ e ∈ events, e.isHeard) → received events = wanted → R wanted s →
      Kept c R wanted true (s, events)
  | disconnected {s events last} : (∀ e ∈ events, e.isHeard) → last.isLost →
      received events <+: wanted → R (received events) s →
      Kept c R wanted false (c.close s, events ++ [last, .closed])

variable {R : Bytes → S → Prop} {wanted : Bytes} {noting : S × List Event}

theorem forall_isHeard_concat {events : List Event} (h : ∀ e ∈ events, e.isHeard) {last : Event}
    (hlast : last.isHeard) : ∀ e ∈ events ++ [last], e.isHeard := by
  intro e he
  rcases List.mem_append.mp he with hmem | hmem
  · exact h e hmem
  · rw [List.mem_singleton.mp hmem]
    exact hlast

theorem noted_write_of_accepted {n : Nat} (h : (c.send data s).1 = .accepted n)
    (events : List Event) :
    c.noted.write true data (s, events) =
      (.ok n, true, (c.send data s).2, events ++ [.sent data (.accepted n)]) := by
  simp only [Channel.write, noted, h, if_true]

theorem noted_write_of_broken (h : (c.send data s).1 = .brokenPipe) (events : List Event) :
    c.noted.write true data (s, events) =
      (.ok data.length, false, c.close (c.send data s).2,
        events ++ [.sent data .brokenPipe, .closed]) := by
  simp only [Channel.write, noted, h, if_true, List.append_assoc, List.cons_append, List.nil_append]

theorem noted_flush_of_accepted {n : Nat} (h : (c.flushOnce s).1 = .accepted n)
    (events : List Event) :
    c.noted.flush true (s, events) =
      (.ok (), true, (c.flushOnce s).2, events ++ [.flushed (.accepted n)]) := by
  simp only [Channel.flush, noted, h, if_true]

theorem noted_flush_of_broken (h : (c.flushOnce s).1 = .brokenPipe) (events : List Event) :
    c.noted.flush true (s, events) =
      (.ok (), false, c.close (c.flushOnce s).2, events ++ [.flushed .brokenPipe, .closed]) := by
  simp only [Channel.flush, noted, h, if_true, List.append_assoc, List.cons_append, List.nil_append]

theorem Kept.write (h : c.Obeys R) (hkept : Kept c R wanted isOpen noting) (hd : data ≠ []) :
    ∃ taken isOpen' noting', taken ≠ [] ∧ taken <+: data ∧
      c.noted.write isOpen data noting = (.ok taken.length, isOpen', noting') ∧
      Kept c R (wanted ++ taken) isOpen' noting' := by
  cases hkept with
  | @connected s events hheard hreceived hR =>
      rcases h.send hd hR with ⟨taken, hne, htaken, hanswer, hR'⟩ | ⟨hanswer, hR'⟩
      · refine ⟨taken, _, _, hne, htaken, noted_write_of_accepted hanswer events, ?_⟩
        refine .connected (forall_isHeard_concat hheard rfl) ?_ hR'
        rw [received_concat, hreceived, Event.bytes, ← List.prefix_iff_eq_take.mp htaken]
      · refine ⟨data, _, _, hd, List.prefix_refl _, noted_write_of_broken hanswer events, ?_⟩
        refine .disconnected hheard rfl ?_ (hreceived ▸ hR')
        exact hreceived ▸ List.prefix_append _ _
  | disconnected hheard hlost hreceived hR =>
      have hlonger := hreceived.trans (List.prefix_append _ data)
      exact ⟨data, false, _, hd, List.prefix_refl _, rfl, .disconnected hheard hlost hlonger hR⟩

theorem Kept.flush (h : c.Obeys R) (hkept : Kept c R wanted isOpen noting) :
    ∃ isOpen' noting', c.noted.flush isOpen noting = (.ok (), isOpen', noting') ∧
      Kept c R wanted isOpen' noting' := by
  cases hkept with
  | @connected s events hheard hreceived hR =>
      obtain ⟨hR', ⟨n, hanswer⟩ | hanswer⟩ := h.flushOnce hR
      · refine ⟨_, _, noted_flush_of_accepted hanswer events, ?_⟩
        refine .connected (forall_isHeard_concat hheard rfl) ?_ hR'
        rw [received_concat, hreceived]
        exact List.append_nil wanted
      · refine ⟨_, _, noted_flush_of_broken hanswer events, ?_⟩
        exact .disconnected hheard rfl (hreceived ▸ List.prefix_refl _) (hreceived ▸ hR')
  | disconnected hheard hlost hreceived hR =>
      exact ⟨false, _, rfl, .disconnected hheard hlost hreceived hR⟩

theorem Kept.writeAll (h : c.Obeys R) (hkept : Kept c R wanted isOpen noting) (data : Bytes) :
    ∃ isOpen' noting', c.noted.writeAll isOpen data noting = (.ok (), isOpen', noting') ∧
      c.noted.count isOpen data noting = data.length ∧
      Kept c R (wanted ++ data) isOpen' noting' := by
  -- what is wanted grows with each write, while the rest of the chunk gets shorter
  induction hlength : data.length using Nat.strongRecOn
    generalizing data wanted isOpen noting with
  | ind size ih =>
    by_cases hd : data = []
    · subst hd
      refine ⟨isOpen, noting, ?_, ?_, by rwa [List.append_nil]⟩
      · rw [Channel.writeAll, dif_pos rfl]
      · rw [count, dif_pos rfl, ← hlength]
        rfl
    · obtain ⟨taken, isOpen', noting', hne, ⟨left, rfl⟩, hwrite, hkept'⟩ := hkept.write h hd
      have hpos := List.length_pos_iff.mpr hne
      have hshorter : left.length < size := by
        rw [← hlength, List.length_append]
        exact Nat.lt_add_of_pos_left hpos
      obtain ⟨hall, hcount⟩ := writeAll_of_write hd hwrite hpos
      obtain ⟨last, noting'', hrest, hmore, hlast⟩ := ih left.length hshorter hkept' left rfl
      rw [List.drop_left] at hall hcount
      refine ⟨last, noting'', by rw [hall, hrest], ?_, ?_⟩
      · rw [hcount, hmore, ← hlength, List.length_append]
      · rwa [List.append_assoc] at hlast

theorem Kept.serve (h : c.Obeys R) (hkept : Kept c R wanted isOpen noting)
    (requests : List Request) :
    ∃ isOpen' noting', c.noted.serve isOpen requests noting =
        (requests.map fun request => .ok request.bytes.length, isOpen', noting') ∧
      Kept c R (wanted ++ asked requests) isOpen' noting' := by
  induction requests generalizing wanted isOpen noting with
  | nil => exact ⟨isOpen, noting, rfl, by rwa [asked, List.flatMap_nil, List.append_nil]⟩
  | cons request requests ih =>
      cases request with
      | write chunk =>
          obtain ⟨isOpen', noting', hwrite, hmore, hkept'⟩ := hkept.writeAll h chunk
          obtain ⟨last, noting'', hserve, hlast⟩ := ih hkept'
          refine ⟨last, noting'', ?_, by simpa [asked, Request.bytes] using hlast⟩
          simp only [Channel.serve, reply, hwrite, hserve, hmore]
          rfl
      | flush =>
          obtain ⟨isOpen', noting', hflush, hkept'⟩ := hkept.flush h
          obtain ⟨last, noting'', hserve, hlast⟩ := ih hkept'
          refine ⟨last, noting'', ?_, by simpa [asked, Request.bytes] using hlast⟩
          simp only [Channel.serve, reply, hflush, hserve]
          rfl

theorem Kept.faithful {requests : List Request} {events : List Event}
    (h : Kept c R (asked requests) isOpen (s, events)) : Faithful requests isOpen events := by
  cases h with
  | connected hheard hreceived _ =>
      have hkept : ∀ e ∈ events, ¬e.isLost := fun e he => by
        simp [Event.isLost_of_isHeard (hheard e he)]
      refine ⟨hreceived ▸ List.prefix_refl _, fun _ => hreceived, by simpa using hkept, ?_⟩
      rintro before lost after rfl hlost
      exact absurd hlost (hkept lost (by simp))
  | @disconnected _ events last hheard hlost hreceived _ =>
      have hbytes : received (events ++ [last, .closed]) = received events :=
        received_append_lost hlost
      have hmem : ¬∀ e ∈ events ++ [last, .closed], ¬e.isLost :=
        fun hkept => hkept last (by simp) hlost
      refine ⟨hbytes ▸ hreceived, fun hkept => absurd hkept hmem, by simpa using hmem, ?_⟩
      intro before lost after heq hlast
      rcases List.append_eq_append_iff.mp heq with ⟨cs, -, hrest⟩ | ⟨cs, hbefore, hrest⟩
      · rcases cs with _ | ⟨e, cs⟩
        · exact (List.cons.inj hrest).2.symm
        · -- what comes later than the loss is the closing, which is no loss
          obtain ⟨-, hrest⟩ := List.cons.inj hrest
          have hclosed : lost = .closed := by
            simpa using (hrest ▸ List.mem_append_right cs (List.mem_cons_self) :
              lost ∈ [Event.closed])
          rw [hclosed] at hlast
          cases hlast
      · rcases cs with _ | ⟨e, cs⟩
        · exact (List.cons.inj hrest).2
        · obtain ⟨rfl, -⟩ := List.cons.inj hrest
          have hearlier := Event.isLost_of_isHeard (hheard lost (by simp [hbefore]))
          simp [hearlier] at hlast

end Channel

end ChatSpace.Writing
