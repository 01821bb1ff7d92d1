
namespace ChatSpace.Processes

inductive Stop (ε : Type) where
  | failed (error : ε)
  | halted (text : String)
deriving DecidableEq, Repr

abbrev Act (S ε α : Type) : Type := ExceptT (Stop ε) (StateM S) α

namespace Stop

def map {ε δ : Type} (f : ε → δ) : Stop ε → Stop δ
  | failed e => failed (f e)
  | halted text => halted text

end Stop

namespace Act

variable {S T ε δ α : Type}

def of (step : S → Except (Stop ε) α × S) : Act S ε α := step

def start (act : Act S ε α) (s : S) : Except (Stop ε) α × S :=
  act.run.run s

def fail (e : ε) : Act S ε α :=
  throw (.failed e)

def does (step : S → α × S) : Act S ε α :=
  of fun s => match step s with | (a, s) => (.ok a, s)

def current : Act S ε S :=
  does fun s => (s, s)

def change (f : S → S) : Act S ε Unit :=
  does fun s => ((), f s)

def mapError (f : ε → δ) (act : Act S ε α) : Act S δ α :=
  of fun s => match act.start s with | (result, s) => (result.mapError (Stop.map f), s)

def within (get : S → T) (set : T → S → S) (act : Act T ε α) : Act S ε α :=
  of fun s => match act.start (get s) with | (result, t) => (result, set t s)

def andThen (after : S → S) (act : Act S ε α) : Act S ε α :=
  of fun s => match act.start s with | (result, s) => (result, after s)

def onFailure (after : S → S) (act : Act S ε α) : Act S ε α :=
  of fun s =>
    match act.start s with
    | (.ok a, s) => (.ok a, s)
    | (.error e, s) => (.error e, after s)

def attempt (act : Act S ε α) : Act S δ (Except ε α) :=
  of fun s =>
    match act.start s with
    | (.ok a, s) => (.ok (.ok a), s)
    | (.error (.failed e), s) => (.ok (.error e), s)
    | (.error (.halted text), s) => (.error (.halted text), s)

theorem start_bind {β : Type} (act : Act S ε α) (next : α → Act S ε β) (s : S) :
    (act >>= next).start s =
      match act.start s with
      | (.ok a, s) => (next a).start s
      | (.error e, s) => (.error e, s) := by
  rcases h : act s with ⟨_ | a, s'⟩
  · simp only [start, bind, ExceptT.bind, ExceptT.mk, ExceptT.run, StateT.run, StateT.bind, h,
      ExceptT.bindCont]
    rfl
  · simp only [start, bind, ExceptT.bind, ExceptT.mk, ExceptT.run, StateT.run, StateT.bind, h,
      ExceptT.bindCont]

end Act

end ChatSpace.Processes
