import ApprovalGate.Gate.Run
import ApprovalGate.Gate.Sweep
import ApprovalGate.Proofs.Registry.Winner
/-!
# Steps half done

Whoever changes a wait in the registry wakes its continuation in a step of its own, and in between anything can happen.
A `Traffic` is a gate with the parts of steps that are still to be done: a `Move` begins one, and any part that is left
can be the next to be done, in any order.  What the moves say of executions is left open (`Move.account`), since no
wait depends on it.
-/
namespace ApprovalGate

inductive Half where
  /-- A wait is over, and its continuation is to be woken. -/
  | wake (t : Token) (s : Signal)
  /-- A wait is overdue, and it is to be seen whether a continuation is parked on it. -/
  | check (t : Token) (now : Instant)
  /-- No continuation was parked, so the wait is to be expired. -/
  | lapse (t : Token) (now : Instant)
  /-- A continuation is to be told what the registry has. -/
  | look (t : Token)
  /-- The registry has the decision `d?`, which is to be taken and handed over. -/
  | collect (t : Token) (d? : Option Decision)
deriving DecidableEq

def Half.token : Half → Token
  | wake t _ | check t _ | lapse t _ | look t | collect t _ => t

namespace Registry

/-- Operations that end no wait. -/
def Operation.isQuiet : Operation → Bool
  | .noteUpdate _ _ | .remove _ | .takeDecision _ | .markDelivered _ | .sweep _ => true
  | .register _ | .resolve _ _ | .expire _ _ | .cancel _ => false

end Registry

open Registry (Operation Ending)

/-- What begins in a gate. -/
inductive Move where
  /-- A decision is delivered to an address. -/
  | deliver (x : Token) (d : Decision)
  | cancel (e : ExecutionId) (reason : String)
  | register (w : Wait)
  | upkeep (op : Operation) (quiet : op.isQuiet = true)
  /-- The waits overdue at an instant are gone through, each finished at an instant of its own. -/
  | overdue (at' : Instant) (finished : Token → Instant)
  | attach (e : ExecutionId) (t : Token) (deadline : Option Nat) (now : Instant)
  /-- The timer of a handle goes off. -/
  | fire (serial : Nat) (now : Instant)
  /-- A handle reads its mail. -/
  | read (serial : Nat) (now : Instant)
  /-- The continuation of a handle that is dropped goes. -/
  | leave (serial : Nat)
  /-- A handle that was dropped is gone. -/
  | close (serial : Nat)
  /-- Something else is known of the executions. -/
  | account (executions : Table ExecutionId Execution)

inductive Step where
  | begin (m : Move)
  | resume (half : Half)

namespace Gate

/-- The gate with a continuation parked on a token, in the place of whatever was parked there. -/
def park (g : Gate) (e : ExecutionId) (t : Token) (deadline : Option Nat) (now : Instant) : Gate :=
  let g' := match g.waiters.get? t with
    | some replaced => g.post replaced.serial .lost
    | none => g
  { g' with
    nextSerial := g.nextSerial + 1
    waiters := g'.waiters.insert t ⟨g.nextSerial, e⟩
    handles := g'.handles.insert g.nextSerial { execution := e, token := t, deadline, mail := .none }
  }.transition e .waiting (some t) now

def unpark (g : Gate) (serial : Nat) : Gate :=
  match g.handles.get? serial with
  | none => g
  | some h => match g.waiters.get? h.token with
    | some w => if w.serial = serial then { g with waiters := g.waiters.erase h.token } else g
    | none => g

/-- The first part of a timer's step: it will not go off again, and the wait expires. -/
def expireFor (g : Gate) (serial : Nat) (h : Handle) (now : Instant) : Gate × List Half :=
  let g := { g with handles := g.handles.insert serial { h with deadline := none } }
  match g.registry.expire h.token now with
  | (.expired _, registry) => ({ g with registry }, [.wake h.token .expired])
  | (_, registry) => ({ g with registry }, [.look h.token])

/-- What a move does at once, and what it leaves to be done. -/
def onset (g : Gate) : Move → Gate × List Half
  | .deliver x d =>
    let t := g.registry.canonical x
    match g.registry.resolve t d with
    | (.resolved _ d, registry) => ({ g with registry }, [.wake t (.decision d)])
    | (_, registry) => ({ g with registry }, [])
  | .cancel e reason =>
    ({ g with registry := (g.registry.cancel e).2 }, (g.registry.cancel e).1.map fun t => .wake t (.cancelled reason))
  | .register w => match g.registry.register w with
    | (.ok (some (t, _)), registry) =>
      ({ g with registry }, [.wake t (.cancelled "superseded by a newer change request for the job")])
    | (_, registry) => ({ g with registry }, [])
  | .upkeep op _ => ({ g with registry := g.registry.perform op }, [])
  | .overdue at' finished => (g, (g.registry.overdue at').map fun t => .check t (finished t))
  | .attach e t deadline now => (g.park e t deadline now, [.look t])
  | .fire serial now => match g.handles.get? serial with
    | none => (g, [])
    | some h => g.expireFor serial h now
  | .read serial now => match g.handles.get? serial with
    | none => (g, [])
    | some h => ((g.readMail serial h now).2, [])
  | .leave serial => (g.unpark serial, [])
  | .close serial => (g.close serial, [])
  | .account executions => ({ g with executions }, [])

/-- What is told to a continuation whose wait the registry has no pending record of. -/
def told (t : Token) : Option WaitRecord → List Half
  | none => [.wake t (.cancelled "wait is no longer registered")]
  | some r => match r.status with
    | .pending => []
    | .resolved => [.collect t r.decision]
    | .expired => [.wake t .expired]
    | .cancelled => [.wake t (.cancelled "wait was cancelled")]

/-- What a part that was left does, and what it leaves in turn. -/
def sequel (g : Gate) : Half → Gate × List Half
  | .wake t s => ((g.signal t s).2, [])
  | .check t now => (g, if g.hasWaiter t then [] else [.lapse t now])
  | .lapse t now => match g.registry.expire t now with
    | (.expired _, registry) => ({ g with registry }, [.wake t .expired])
    | (_, registry) => ({ g with registry }, [])
  | .look t => (g, told t (g.registry.get? t))
  | .collect t d? =>
    ({ g with registry := (g.registry.takeDecision t).2 },
      (((g.registry.takeDecision t).1 <|> d?).map fun d => .wake t (.decision d)).toList)

/-- What a move makes of the handle that reads its mail. -/
def answers (g : Gate) : Move → List (Nat × Outcome WaitOutcome)
  | .read serial now => match g.handles.get? serial with
    | none => []
    | some h => ((g.readMail serial h now).1.map fun result => (serial, result)).toList
  | _ => []

end Gate

structure Traffic where
  gate : Gate
  halves : List Half
  /-- What the handles that are done were answered, by serial number. -/
  results : List (Nat × Outcome WaitOutcome)

namespace Traffic

/-- A gate in which nothing is half done. -/
def idle (gate : Gate) : Traffic := ⟨gate, [], []⟩

/-- One part of a step.  Only what was left can be carried on with. -/
def step (x : Traffic) : Step → Traffic
  | .begin m =>
    ⟨(x.gate.onset m).1, x.halves ++ (x.gate.onset m).2, x.results ++ x.gate.answers m⟩
  | .resume half =>
    if half ∈ x.halves then
      ⟨(x.gate.sequel half).1, x.halves.erase half ++ (x.gate.sequel half).2, x.results⟩
    else x

/-! ## What a step does to the registry -/

end Traffic

/-- The operation of the registry that a move begins with. -/
def Gate.op? (g : Gate) : Move → Option Operation
  | .deliver x d => some (.resolve (g.registry.canonical x) d)
  | .cancel e _ => some (.cancel e)
  | .register w => some (.register w)
  | .upkeep op _ => some op
  | .fire serial now => (g.handles.get? serial).map fun h => .expire h.token now
  | .read serial _ => (g.handles.get? serial).bind fun h => match h.mail with
    | .signal (.decision d) => (WaitOutcome.ofDecision? d).map fun _ => .markDelivered h.token
    | _ => none
  | _ => none

def Half.op? : Half → Option Operation
  | lapse t now => some (.expire t now)
  | collect t _ => some (.takeDecision t)
  | _ => none

namespace Traffic

def op? (x : Traffic) : Step → Option Operation
  | .begin m => x.gate.op? m
  | .resume half => if half ∈ x.halves then half.op? else none

def run (x : Traffic) (steps : List Step) : Traffic := steps.foldl step x

theorem run_cons (x : Traffic) (st : Step) (steps : List Step) : x.run (st :: steps) = (x.step st).run steps := rfl

theorem run_append (x : Traffic) (steps steps' : List Step) : x.run (steps ++ steps') = (x.run steps).run steps' :=
  List.foldl_append

end Traffic

namespace Registry

/-- The registry after an operation, or the same without one. -/
def after (g : Registry) : Option Operation → Registry
  | none => g
  | some op => g.perform op

theorem Sound.after {g : Registry} (s : g.Sound) (op? : Option Operation) : (g.after op?).Sound := by
  cases op? with
  | none => exact s
  | some op => exact s.happen (.call op)

/-- The end that an operation puts to the wait under a token, if there is an operation. -/
def endingOf? (g : Registry) (t : Token) (op? : Option Operation) : Option Ending :=
  op?.bind fun op => g.ending? t (.call op)

end Registry

namespace Traffic

def ending? (x : Traffic) (t : Token) (st : Step) : Option Ending := x.gate.registry.endingOf? t (x.op? st)

/-- The ends that a run puts to the wait under a token. -/
def endings (x : Traffic) (t : Token) : List Step → List Ending
  | [] => []
  | st :: steps => (x.ending? t st).toList ++ (x.step st).endings t steps

theorem endings_append (x : Traffic) (t : Token) : ∀ steps steps' : List Step,
    x.endings t (steps ++ steps') = x.endings t steps ++ (x.run steps).endings t steps'
  | [], steps' => rfl
  | st :: steps, steps' => by
    rw [List.cons_append, endings, endings, endings_append (x.step st) t steps steps', List.append_assoc]
    rfl

/-- Whether every part of a run is as it should be where it is done. -/
def Along (ok : Traffic → Step → Prop) (x : Traffic) : List Step → Prop
  | [] => True
  | st :: steps => ok x st ∧ (x.step st).Along ok steps

theorem Along.of_forall {ok : Traffic → Step → Prop} : ∀ {steps : List Step} {x : Traffic},
    (∀ st ∈ steps, ∀ x, ok x st) → x.Along ok steps
  | [], _, _ => trivial
  | st :: _, x, h => ⟨h st List.mem_cons_self x, .of_forall fun st' hst => h st' (List.mem_cons_of_mem _ hst)⟩

theorem Along.combine {p q r : Traffic → Step → Prop} {m : Step → Prop} : ∀ {steps : List Step} {x : Traffic},
    x.Along p steps → (∀ x st, p x st → q x st → m st → r x st) → x.Along q steps → (∀ st ∈ steps, m st) →
      x.Along r steps
  | [], _, _, _, _, _ => trivial
  | st :: _, x, ⟨hp, hps⟩, h, ⟨hq, hqs⟩, hm =>
    ⟨h x st hp hq (hm st List.mem_cons_self), hps.combine h hqs fun st' hst => hm st' (List.mem_cons_of_mem _ hst)⟩

/-- What every part of a run keeps, with the end it puts to a wait that has come to none, the run keeps. -/
theorem Along.run {ok : Traffic → Step → Prop} {t : Token} {P : Traffic → Option Ending → Prop}
    (hP : ∀ {x e? st}, P x e? → ok x st →
      P (x.step st) (e?.or (x.ending? t st)) ∧ (e?.isSome = true → x.ending? t st = none)) :
    ∀ {steps : List Step} {x : Traffic} {e? : Option Ending}, x.Along ok steps → P x e? →
      ∃ e'?, P (x.run steps) e'? ∧ e'?.toList = e?.toList ++ x.endings t steps
  | [], x, e?, _, h => ⟨e?, h, (List.append_nil _).symm⟩
  | st :: steps, x, e?, ⟨hok, hsteps⟩, h => by
    obtain ⟨h', hn⟩ := hP h hok
    obtain ⟨e'?, h'', he⟩ := Along.run hP hsteps h'
    refine ⟨e'?, h'', ?_⟩
    rw [he, endings, ← List.append_assoc]
    congr 1
    cases e? with
    | none => rfl
    | some e => rw [hn rfl]; rfl

end Traffic

/-! ## Every step is an operation of the registry, or none -/

namespace Gate

theorem readMail_registry (g : Gate) (serial : Nat) (h : Handle) (now : Instant) :
    (g.readMail serial h now).2.registry = g.registry.after (match h.mail with
      | .signal (.decision d) => (WaitOutcome.ofDecision? d).map fun _ => .markDelivered h.token
      | _ => none) := by
  rw [readMail]
  cases h.mail with
  | none => rfl
  | lost => rfl
  | signal s =>
    cases s with
    | decision d =>
      simp only [finish]
      cases WaitOutcome.ofDecision? d <;> rfl
    | expired => rfl
    | cancelled reason => rfl

theorem onset_registry (g : Gate) (m : Move) : (g.onset m).1.registry = g.registry.after (g.op? m) := by
  cases m with
  | deliver x d =>
    show _ = (g.registry.resolve (g.registry.canonical x) d).2
    rw [onset]
    rcases g.registry.resolve (g.registry.canonical x) d with ⟨answer, registry⟩
    cases answer <;> rfl
  | cancel e reason => rfl
  | register w =>
    show _ = (g.registry.register w).2
    rw [onset]
    rcases g.registry.register w with ⟨result, registry⟩
    rcases result with f | s
    · rfl
    · cases s <;> rfl
  | upkeep op _ => rfl
  | overdue at' finished => rfl
  | attach e t deadline now =>
    show (g.park e t deadline now).registry = g.registry
    rw [park, transition]
    cases g.waiters.get? t with
    | none => rfl
    | some w =>
      simp only [post]
      cases g.handles.get? w.serial <;> rfl
  | fire serial now =>
    rw [onset, op?]
    cases g.handles.get? serial with
    | none => rfl
    | some h =>
      show (g.expireFor serial h now).1.registry = (g.registry.expire h.token now).2
      rw [expireFor]
      rcases g.registry.expire h.token now with ⟨answer, registry⟩
      cases answer <;> rfl
  | read serial now =>
    rw [onset, op?]
    cases g.handles.get? serial with
    | none => rfl
    | some h => exact g.readMail_registry serial h now
  | leave serial =>
    show (g.unpark serial).registry = g.registry
    rw [unpark]
    cases g.handles.get? serial with
    | none => rfl
    | some h =>
      simp only
      cases g.waiters.get? h.token with
      | none => rfl
      | some w =>
        simp only
        split <;> rfl
  | close serial => rfl
  | account executions => rfl

theorem signal_registry (g : Gate) (t : Token) (s : Signal) : (g.signal t s).2.registry = g.registry := by
  rw [signal]
  cases g.waiters.get? t with
  | none => rfl
  | some w =>
    simp only [post]
    cases g.handles.get? w.serial <;> rfl

theorem sequel_registry (g : Gate) (half : Half) : (g.sequel half).1.registry = g.registry.after half.op? := by
  cases half with
  | wake t s => exact g.signal_registry t s
  | check t now => rfl
  | lapse t now =>
    show _ = (g.registry.expire t now).2
    rw [sequel]
    rcases g.registry.expire t now with ⟨answer, registry⟩
    cases answer <;> rfl
  | look t => rfl
  | collect t d? => rfl

end Gate

namespace Traffic

theorem step_registry (x : Traffic) (st : Step) : (x.step st).gate.registry = x.gate.registry.after (x.op? st) := by
  cases st with
  | begin m => exact x.gate.onset_registry m
  | resume half =>
    rw [step, op?]
    by_cases hm : half ∈ x.halves
    · rw [if_pos hm, if_pos hm]
      exact x.gate.sequel_registry half
    · rw [if_neg hm, if_neg hm]
      rfl

end Traffic
end ApprovalGate
