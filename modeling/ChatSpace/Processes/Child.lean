import ChatSpace.Processes.Behaviour
import ChatSpace.Processes.Stream

namespace ChatSpace.Processes

structure Plumbing where
  pipes : List Bytes := []
  input : Bytes := []
  output : Bytes := []
  errors : Bytes := []
  files : Files.Tree := .empty

inductive Sink where
  | output
  | errors
  | null
  | pipe (pipe : Nat)
  | file (directory : Files.Location) (path : Bytes)
deriving DecidableEq, Repr

inductive Supply where
  | input
  | null
  | pipe (pipe : Nat)
deriving DecidableEq, Repr

inductive Delivery where
  | done (plumbing : Plumbing)
  | partly (rest : Bytes) (plumbing : Plumbing)
  | blocked
  | broken

namespace Plumbing

def capacity : Nat := 65536

def load (p : Plumbing) : Nat :=
  total List.length p.pipes

def setPipe (p : Plumbing) (pipe : Nat) (bytes : Bytes) : Plumbing :=
  { p with pipes := p.pipes.set pipe bytes }

def append (p : Plumbing) (directory : Files.Location) (path data : Bytes) : Plumbing :=
  let before := (p.files.read directory path).toOption.getD []
  match p.files.write directory path (before ++ data) with
  | .ok files => { p with files }
  | .error _ => p

/-- Writes what there is room for. A pipe that nobody can read from is broken. -/
def deliver (p : Plumbing) (ends : List PipeEnd) (data : Bytes) : Sink → Delivery
  | .output => .done { p with output := p.output ++ data }
  | .errors => .done { p with errors := p.errors ++ data }
  | .null => .done p
  | .file directory path => .done (p.append directory path data)
  | .pipe pipe =>
      if data.isEmpty then .done p
      else if ⟨pipe, .reading⟩ ∉ ends then .broken
      else
        match p.pipes[pipe]? with
        | none => .broken
        | some bytes =>
            let room := capacity - bytes.length
            if data.length ≤ room then .done (p.setPipe pipe (bytes ++ data))
            else if room = 0 then .blocked
            else .partly (data.drop room) (p.setPipe pipe (bytes ++ data.take room))

theorem total_set {l : List Bytes} {n : Nat} {bytes : Bytes} (h : l[n]? = some bytes)
    (other : Bytes) :
    total List.length (l.set n other) + bytes.length = total List.length l + other.length := by
  induction l generalizing n with
  | nil => simp at h
  | cons first rest ih =>
      cases n with
      | zero =>
          simp only [List.getElem?_cons_zero, Option.some.injEq] at h
          subst h
          simp only [List.set_cons_zero, total]
          omega
      | succ n =>
          have := ih (n := n) (by simpa using h)
          simp only [List.set_cons_succ, total]
          omega

theorem load_setPipe {p : Plumbing} {pipe : Nat} {bytes : Bytes} (h : p.pipes[pipe]? = some bytes)
    (other : Bytes) : (p.setPipe pipe other).load + bytes.length = p.load + other.length :=
  total_set h other

def put (p : Plumbing) (taken : Bytes) : Sink → Plumbing
  | .output => { p with output := p.output ++ taken }
  | .errors => { p with errors := p.errors ++ taken }
  | .null => p
  | .file directory path => p.append directory path taken
  | .pipe pipe => p.setPipe pipe (p.pipes[pipe]?.getD [] ++ taken)

theorem put_nil_pipe (p : Plumbing) (pipe : Nat) : p.put [] (.pipe pipe) = p := by
  have hset : p.pipes.set pipe (p.pipes[pipe]?.getD [] ++ []) = p.pipes := by
    apply List.ext_getElem?
    intro i
    rw [List.append_nil, List.getElem?_set]
    split
    · next hsame =>
      subst hsame
      split
      · next hlt => simp [hlt]
      · next hlt => exact (List.getElem?_eq_none (Nat.le_of_not_lt hlt)).symm
    · rfl
  rw [put, setPipe, hset]

theorem eq_put_of_done {p q : Plumbing} {ends : List PipeEnd} {data : Bytes} {sink : Sink}
    (h : p.deliver ends data sink = .done q) : q = p.put data sink := by
  cases sink with
  | pipe pipe =>
      simp only [deliver] at h
      repeat' split at h
      all_goals cases h
      · next hempty =>
        obtain rfl := List.isEmpty_iff.mp hempty
        exact (put_nil_pipe p pipe).symm
      · next hcontent _ => rw [put, hcontent, Option.getD_some]
  | _ =>
      cases h
      rfl

theorem eq_put_of_partly {p q : Plumbing} {ends : List PipeEnd} {data rest : Bytes} {sink : Sink}
    (h : p.deliver ends data sink = .partly rest q) :
    ∃ taken, data = taken ++ rest ∧ q = p.put taken sink := by
  cases sink with
  | pipe pipe =>
      simp only [deliver] at h
      repeat' split at h
      all_goals cases h
      next bytes hcontent _ _ =>
        refine ⟨_, (List.take_append_drop (capacity - bytes.length) data).symm, ?_⟩
        rw [put, hcontent, Option.getD_some]
  | _ => cases h

theorem load_of_partly {p q : Plumbing} {ends : List PipeEnd} {data rest : Bytes} {sink : Sink}
    (h : p.deliver ends data sink = .partly rest q) :
    rest.length < data.length ∧ q.load + rest.length = p.load + data.length := by
  unfold deliver at h
  split at h
  · cases h
  · cases h
  · cases h
  · cases h
  · split at h
    · cases h
    · split at h
      · cases h
      · split at h
        · cases h
        · next bytes hpipe =>
          simp only at h
          split at h
          · cases h
          · next hroom =>
            split at h
            · cases h
            · next hzero =>
              cases h
              have := load_setPipe hpipe
                (bytes ++ data.take (capacity - bytes.length))
              simp only [List.length_append, List.length_take, List.length_drop] at this ⊢
              omega

end Plumbing

/-- A process that was started. What it has read of its input waits in `taken` until there is
enough, and `said` is what it has written to its output. -/
structure Child where
  streams : Streams
  directory : Files.Location
  actions : List Action
  exit : Exit
  broken : Exit
  taken : Bytes := []
  said : Bytes := []
  ended : Option Exit := none

namespace Child

def ends (c : Child) : List PipeEnd :=
  if c.ended.isSome then [] else c.streams.ends

/-- Bytes written to the wrong end of a pipe go nowhere. -/
def sinkOf (inherited : Sink) : Disposition → Sink
  | .inherited => inherited
  | .null => .null
  | .provisioned ⟨pipe, .writing⟩ => .pipe pipe
  | .provisioned ⟨_, .reading⟩ => .null

def sink (c : Child) : Output → Sink
  | .stdout => sinkOf .output c.streams.stdout
  | .stderr => sinkOf .errors c.streams.stderr
  | .file path => .file c.directory path

def supply (c : Child) : Supply :=
  match c.streams.stdin with
  | .inherited => .input
  | .null => .null
  | .provisioned ⟨pipe, .reading⟩ => .pipe pipe
  | .provisioned ⟨_, .writing⟩ => .null

def weight (c : Child) : Nat :=
  if c.ended.isSome then 0 else 1 + total Action.weight c.actions

def pending (c : Child) : Nat :=
  if c.ended.isSome then 0 else total Action.pending c.actions

def endWith (c : Child) (exit : Exit) : Child :=
  { c with ended := some exit }

def proceed (c : Child) (actions : List Action) : Child :=
  { c with actions, taken := [] }

def say (c : Child) (target : Output) (data : Bytes) : Child :=
  { c with said := if target = .stdout then c.said ++ data else c.said }

@[simp] theorem ended_say (c : Child) (target : Output) (data : Bytes) :
    (c.say target data).ended = c.ended := rfl

def cannotOpen : Nat := 2

def write (c : Child) (ends : List PipeEnd) (p : Plumbing) (target : Output) (data : Bytes)
    (rest : List Action) : Option (Child × Plumbing) :=
  match p.deliver ends data (c.sink target) with
  | .done p => some ((c.say target data).proceed rest, p)
  | .partly left p =>
      some ((c.say target (data.take (data.length - left.length))).proceed
        (.write target left :: rest), p)
  | .blocked => none
  | .broken => some (c.endWith c.broken, p)

def transform (c : Child) (ends : List PipeEnd) (p : Plumbing) (limit : Option Nat)
    (target : Output) (f : Bytes → Bytes) (rest : List Action) : Option (Child × Plumbing) :=
  if limit.any (· ≤ c.taken.length) then
    some (c.proceed (.write target (f c.taken) :: rest), p)
  else
    let wanted (bytes : Bytes) : Nat := (limit.map (· - c.taken.length)).getD bytes.length
    match c.supply with
    | .null => some (c.proceed (.write target (f c.taken) :: rest), p)
    | .input =>
        some (c.proceed (.write target (f (c.taken ++ p.input.take (wanted p.input))) :: rest),
          { p with input := p.input.drop (wanted p.input) })
    | .pipe pipe =>
        match p.pipes[pipe]? with
        | none => some (c.proceed (.write target (f c.taken) :: rest), p)
        | some [] =>
            if ⟨pipe, .writing⟩ ∈ ends then none
            else some (c.proceed (.write target (f c.taken) :: rest), p)
        | some (b :: bytes) =>
            some ({ c with taken := c.taken ++ (b :: bytes).take (wanted (b :: bytes)) },
              p.setPipe pipe ((b :: bytes).drop (wanted (b :: bytes))))

def step (ends : List PipeEnd) (p : Plumbing) (c : Child) : Option (Child × Plumbing) :=
  if c.ended.isSome then none
  else
    match c.actions with
    | [] => some (c.endWith c.exit, p)
    | .create path :: rest =>
        match p.files.write c.directory path [] with
        | .ok files => some (c.proceed rest, { p with files })
        | .error _ => some (c.endWith (.code cannotOpen), p)
    | .write target data :: rest => c.write ends p target data rest
    | .transform limit target f :: rest => c.transform ends p limit target f rest

inductive Steps (ends : List PipeEnd) (p : Plumbing) (c : Child) : Child → Plumbing → Prop
  | ended (exit : Exit) : Steps ends p c (c.endWith exit) p
  | created {path rest files} : c.actions = .create path :: rest →
      p.files.write c.directory path [] = .ok files →
      Steps ends p c (c.proceed rest) { p with files }
  | wrote {target data rest} : c.actions = .write target data :: rest →
      p.deliver ends data (c.sink target) = .done (p.put data (c.sink target)) →
      Steps ends p c ((c.say target data).proceed rest) (p.put data (c.sink target))
  | wrotePartly {target taken left rest} : c.actions = .write target (taken ++ left) :: rest →
      p.deliver ends (taken ++ left) (c.sink target) =
        .partly left (p.put taken (c.sink target)) →
      Steps ends p c ((c.say target taken).proceed (.write target left :: rest))
        (p.put taken (c.sink target))
  | transformed {limit target f rest} : c.actions = .transform limit target f :: rest →
      Steps ends p c (c.proceed (.write target (f c.taken) :: rest)) p
  | drained {limit target f rest} (n : Nat) : c.actions = .transform limit target f :: rest →
      c.supply = .input →
      Steps ends p c (c.proceed (.write target (f (c.taken ++ p.input.take n)) :: rest))
        { p with input := p.input.drop n }
  | took {limit target f rest pipe bytes n} : c.actions = .transform limit target f :: rest →
      c.supply = .pipe pipe → p.pipes[pipe]? = some bytes → bytes ≠ [] → 0 < n →
      Steps ends p c { c with taken := c.taken ++ bytes.take n } (p.setPipe pipe (bytes.drop n))

theorem steps_of_write {c d : Child} {ends : List PipeEnd} {p q : Plumbing} {target : Output}
    {data : Bytes} {rest : List Action} (hact : c.actions = .write target data :: rest)
    (h : c.write ends p target data rest = some (d, q)) : Steps ends p c d q := by
  unfold write at h
  split at h
  · next hdeliver =>
    cases h
    obtain rfl := Plumbing.eq_put_of_done hdeliver
    exact .wrote hact hdeliver
  · next left _ hdeliver =>
    cases h
    obtain ⟨taken, rfl, rfl⟩ := Plumbing.eq_put_of_partly hdeliver
    have htaken : (taken ++ left).take ((taken ++ left).length - left.length) = taken := by simp
    rw [htaken]
    exact .wrotePartly hact hdeliver
  · cases h
  · cases h
    exact .ended c.broken

theorem steps_of_transform {c d : Child} {ends : List PipeEnd} {p q : Plumbing}
    {limit : Option Nat} {target : Output} {f : Bytes → Bytes} {rest : List Action}
    (hact : c.actions = .transform limit target f :: rest)
    (h : c.transform ends p limit target f rest = some (d, q)) : Steps ends p c d q := by
  unfold transform at h
  split at h
  · cases h
    exact .transformed hact
  · next hlimit =>
    simp only at h
    split at h
    · cases h
      exact .transformed hact
    · next hsupply =>
      cases h
      exact .drained _ hact hsupply
    · next hsupply =>
      split at h
      · cases h
        exact .transformed hact
      · split at h
        · cases h
        · cases h
          exact .transformed hact
      · next b bytes hpipe =>
        cases h
        have hwanted : 0 < (limit.map (· - c.taken.length)).getD (b :: bytes).length := by
          cases limit with
          | none => simp
          | some n => simp at hlimit ⊢; omega
        exact .took hact hsupply hpipe (List.cons_ne_nil b bytes) hwanted

theorem steps_of_step {ends : List PipeEnd} {p q : Plumbing} {c d : Child}
    (h : c.step ends p = some (d, q)) : c.ended = none ∧ Steps ends p c d q := by
  unfold step at h
  split at h
  · cases h
  · next hrun =>
    refine ⟨by simpa using hrun, ?_⟩
    split at h
    · cases h
      exact .ended c.exit
    · next hact =>
      split at h
      · next hwrite =>
        cases h
        exact .created hact hwrite
      · cases h
        exact .ended (.code cannotOpen)
    · next hact => exact steps_of_write hact h
    · next hact => exact steps_of_transform hact h

theorem weight_endWith_lt {c : Child} (hrun : c.ended = none) (exit : Exit) :
    (c.endWith exit).weight < c.weight := by
  simp only [weight, endWith, hrun, Option.isSome_some, Option.isSome_none, if_true,
    Bool.false_eq_true, if_false]
  omega

theorem weight_proceed_lt {c : Child} {actions : List Action} (hrun : c.ended = none)
    (h : total Action.weight actions < total Action.weight c.actions) :
    (c.proceed actions).weight < c.weight := by
  simp only [weight, proceed, hrun, Option.isSome_none, Bool.false_eq_true, if_false]
  omega

theorem weight_of_wrote {c : Child} {target : Output} {data : Bytes} {rest : List Action}
    (hrun : c.ended = none) (hact : c.actions = .write target data :: rest) (said : Bytes) :
    ((c.say target said).proceed rest).weight < c.weight := by
  change (c.proceed rest).weight < c.weight
  exact weight_proceed_lt hrun (by simp [hact, total, Action.weight])

theorem weight_of_wrotePartly {c : Child} {target : Output} {data : Bytes} {rest : List Action}
    (hrun : c.ended = none) (hact : c.actions = .write target data :: rest) (said left : Bytes) :
    ((c.say target said).proceed (.write target left :: rest)).weight = c.weight := by
  simp [weight, proceed, hrun, hact, total, Action.weight]

theorem pending_of_wrotePartly {c : Child} {target : Output} {data : Bytes} {rest : List Action}
    (hrun : c.ended = none) (hact : c.actions = .write target data :: rest) (said left : Bytes) :
    ((c.say target said).proceed (.write target left :: rest)).pending + 2 * data.length =
      c.pending + 2 * left.length := by
  simp only [pending, proceed, ended_say, hrun, hact, Option.isSome_none, Bool.false_eq_true,
    if_false, total, Action.pending]
  omega

theorem weight_of_transformed {c : Child} {limit : Option Nat} {target : Output}
    {f : Bytes → Bytes} {rest : List Action} (hrun : c.ended = none)
    (hact : c.actions = .transform limit target f :: rest) (data : Bytes) :
    (c.proceed (.write target data :: rest)).weight < c.weight :=
  weight_proceed_lt hrun (by simp [hact, total, Action.weight])

def Nearer (c d : Child) (p q : Plumbing) : Prop :=
  d.weight < c.weight ∨ d.weight = c.weight ∧ d.pending + q.load < c.pending + p.load

theorem step_lt {ends : List PipeEnd} {p q : Plumbing} {c d : Child}
    (h : c.step ends p = some (d, q)) : Nearer c d p q := by
  obtain ⟨hrun, hsteps⟩ := steps_of_step h
  cases hsteps with
  | ended exit => exact .inl (weight_endWith_lt hrun exit)
  | created hact => exact .inl (weight_proceed_lt hrun (by simp [hact, total, Action.weight]))
  | wrote hact => exact .inl (weight_of_wrote hrun hact _)
  | @wrotePartly _ taken left _ hact hdeliver =>
      refine .inr ⟨weight_of_wrotePartly hrun hact taken left, ?_⟩
      have hpending := pending_of_wrotePartly hrun hact taken left
      obtain ⟨hlt, hload⟩ := Plumbing.load_of_partly hdeliver
      omega
  | transformed hact => exact .inl (weight_of_transformed hrun hact _)
  | drained n hact => exact .inl (weight_of_transformed hrun hact _)
  | @took _ _ _ _ pipe bytes n hact hsupply hbytes hsome hpos =>
      refine .inr ⟨rfl, ?_⟩
      have hload := Plumbing.load_setPipe hbytes (bytes.drop n)
      have hlength := List.length_pos_iff.mpr hsome
      rw [List.length_drop] at hload
      change c.pending + _ < _
      omega

end Child

end ChatSpace.Processes
