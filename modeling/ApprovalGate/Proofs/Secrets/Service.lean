import Mathlib.Data.List.InsertIdx
import ApprovalGate.Proofs.Gate.Issuer
import ApprovalGate.Proofs.Secrets.Redacted
/-!
# Secrets stay secret

A `Service` is a gate with its configuration and the requests that are out.  Whatever is asked of it, and in whatever
order, it says the same and shows the same as one that has other secrets (`secrets_stay_secret`): its records, the
snapshot, what it answers and why it fails, what it prints, and what it sends but for the credentials.
-/
namespace ApprovalGate

/-! ## Gates -/

namespace Gate

/-- Whether an operation comes to the same whatever the issuer is, and leaves it alone. -/
def Blind {α : Type} (op : Gate → α × Gate) : Prop :=
  ∀ i g, op (g.withIssuer i) = (op g).map id (withIssuer i)

def redacted (g : Gate) : Gate := g.withIssuer (g.issuer.map Issuer.redacted)

variable {α : Type} {op : Gate → α × Gate}

theorem Blind.issuer (h : Blind op) (g : Gate) : (op g).2.issuer = g.issuer := by
  -- a gate with its own issuer in the place of its issuer is the same gate
  have own : op g = (op g).map id (withIssuer g.issuer) := h g.issuer g
  rw [own]
  rfl

theorem Blind.redacted (h : Blind op) (g : Gate) : op g.redacted = (op g).map id Gate.redacted := by
  refine (h _ g).trans ?_
  rw [← h.issuer g]
  rfl

theorem beginRun_redacted (g : Gate) (e : ExecutionId) (r : ChangeRequest) (random : Uuid) (now : Instant) :
    g.redacted.beginRun e r random now =
      (g.beginRun e r random now).map (Except.map Draft.redacted) Gate.redacted := by
  obtain ⟨registry, issuer, waiters, executions, handles, nextSerial⟩ := g
  cases issuer with
  | none => rfl
  | some i =>
    simp only [beginRun, redacted, withIssuer, Option.map_some, Issuer.draft_redacted]
    cases i.draft r random <;> rfl

end Gate

theorem Config.openGate_redacted (c : Config) (store : Store) (happens : TokenOrder) :
    c.redacted.openGate store happens = (c.openGate store happens).map Gate.redacted := by
  have same : c.redacted.wait = c.wait := rfl
  rw [openGate, openGate, same]
  cases h : Registry.openStore store c.wait.tombstoneTtl happens with
  | mk result registry => cases result <;> rfl

namespace Traffic

def redacted (x : Traffic) : Traffic := { x with gate := x.gate.redacted }

theorem step_redacted (x : Traffic) (st : Step) : x.redacted.step st = (x.step st).redacted := by
  have own : x.step st = (x.step st).withIssuer x.gate.issuer := step_withIssuer x.gate.issuer x st
  have kept : (x.step st).gate.issuer = x.gate.issuer := by
    rw [own]
    rfl
  refine (step_withIssuer _ x st).trans ?_
  rw [← kept]
  rfl

end Traffic

/-! ## Requests that are out -/

/-- A request that was sent and is not answered yet. -/
structure Flight where
  execution : ExecutionId
  draft : Draft
  /-- Whether the execution is to be parked on the wait for the decision. -/
  parks : Bool

namespace Flight

def redacted (f : Flight) : Flight := { f with draft := f.draft.redacted }

end Flight

/-- A request as it is sent, but for its secrets. -/
def Draft.sent (d : Draft) : Http.Request :=
  { d.endpoint.request .post d.payload with credentials := d.endpoint.auth.redacted }

theorem Draft.sent_redacted (d : Draft) : d.redacted.sent = d.sent := by
  have twice : d.endpoint.auth.redacted.redacted = d.endpoint.auth.redacted := by cases d.endpoint.auth <;> rfl
  rw [sent, sent]
  show { d.endpoint.request .post d.payload with credentials := d.endpoint.auth.redacted.redacted } = _
  rw [twice]

/-- A network on which every request is answered alike. -/
def Http.answering (response : Option Http.Response) : Http.Network Id := fun _ => response

/-- How an exchange goes: what a transport tells of it, or what a network answers. -/
inductive Exchange where
  | told (reply : Outcome Reply)
  | answered (response : Option Http.Response)

namespace Exchange

def outcome (x : Exchange) (d : Draft) : Outcome Reply :=
  match x with
  | told reply => reply
  | answered response => d.endpoint.send (Http.answering response) .post d.payload

theorem outcome_redacted (x : Exchange) (d : Draft) : x.outcome d.redacted = x.outcome d := by
  cases x with
  | told reply => rfl
  | answered response =>
    have blind (r : Http.Request) : Http.answering response { r with credentials := r.credentials.redacted } =
        Http.answering response r := rfl
    exact Endpoint.send_redacted blind d.endpoint .post d.payload

end Exchange

/-! ## Services -/

/-- A gate, the configuration that it is set up from, and its requests that are out. -/
structure Service where
  config : Config
  traffic : Traffic
  flights : List Flight

namespace Service

/-- What can be asked of a service. -/
inductive Call where
  /-- A part of a step is done, while others are half done. -/
  | part (st : Step)
  /-- The registry is asked or changed by itself. -/
  | consult (f : Registry → String × Registry)
  | submit (e : ExecutionId) (r : ChangeRequest) (random : Uuid)
  | run (e : ExecutionId) (r : ChangeRequest) (random : Uuid) (now : Instant)
  /-- One of the requests that are out comes to its end. -/
  | land (n : Nat) (x : Exchange) (clock : Clock)
  | attach (e : ExecutionId) (t : Token) (deadline : Option Nat) (now : Instant)
  | reattach (e : ExecutionId) (t : Token) (clock : Clock)
  | receive (address : String) (body : ByteArray) (contentType : Option String) (now : Instant)
  | cancel (e : ExecutionId) (reason : String) (now : Instant)
  | poll (serial : Nat) (clock : Clock) (timerFirst : Bool)
  | drop (serial : Nat) (now : Instant)
  | expire (at' : Instant) (c : Gate.Readings)
  | forget (now : Instant) (retention : Span)
  | process (now : Instant) (retention : Span) (c : Gate.Readings)
  | request (r : Api.Request) (now : Instant) (uptime : Nat)
  /-- The service is set up anew, as it is configured, on a disk. -/
  | start (disk : Disk) (happens : TokenOrder)
  /-- The service is set up anew on the store that it has. -/
  | restart (happens : TokenOrder)

/-- What a service says to it. -/
inductive Answer where
  | done
  | said (text : String)
  | sent (result : Outcome Http.Request)
  | submitted (result : Outcome Submission)
  | parked (result : Outcome Nat)
  | received (receipt : Receipt)
  | cancelled (result : Outcome (List Token))
  | polled (result : Option (Outcome WaitOutcome))
  | counted (count : Nat)
  | processed (report : Gate.SweepReport)
  | responded (response : Api.Response)
  | opened (result : Outcome Unit)

def gate (s : Service) : Gate := s.traffic.gate

def withGate (s : Service) (gate : Gate) : Service := { s with traffic := { s.traffic with gate } }

/-- Has the gate do something. -/
def ask {α : Type} (s : Service) (op : Gate → α × Gate) (say : α → Answer) : Answer × Service :=
  (say (op s.gate).1, s.withGate (op s.gate).2)

/-- Sends what is written out for an execution. -/
def takeOff (s : Service) (e : ExecutionId) (parks : Bool) (result : Outcome Draft) : Answer × Service :=
  (.sent (result.map Draft.sent), { s with
    flights := s.flights ++ (result.toOption.map fun d => ⟨e, d, parks⟩).toList })

/-- What the end of an exchange comes to: its execution is parked on the wait, or the wait is registered by itself. -/
def touchDown (s : Service) (f : Flight) (x : Exchange) (clock : Clock) : Answer × Service :=
  if f.parks then s.ask (fun g => g.finishRun f.execution f.draft (x.outcome f.draft) clock) .parked
  else s.ask (fun g =>
    let (result, registry) := Issuer.complete g.registry f.draft f.execution clock.now (x.outcome f.draft)
    (result, { g with registry })) .submitted

/-- Opens a gate on a store, if there is one, and goes on with it. -/
def reopen (s : Service) (store : Outcome Store) (happens : TokenOrder) : Answer × Service :=
  match store >>= fun store => s.config.openGate store happens with
  | .error failure => (.opened (.error failure), s)
  | .ok gate => (.opened (.ok ()), ⟨s.config, .idle gate, []⟩)

def step (s : Service) : Call → Answer × Service
  | .part st => (.done, { s with traffic := s.traffic.step st })
  | .consult f => s.ask (fun g => ((f g.registry).1, { g with registry := (f g.registry).2 })) .said
  | .submit e r random => match s.gate.issuer with
    | none => (.done, s)
    | some i => s.takeOff e false (i.draft r random)
  | .run e r random now =>
    (s.withGate (s.gate.beginRun e r random now).2).takeOff e true (s.gate.beginRun e r random now).1
  | .land n x clock => match s.flights[n]? with
    | none => (.done, s)
    | some f => { s with flights := s.flights.eraseIdx n }.touchDown f x clock
  | .attach e t deadline now => s.ask (fun g => g.attach e t deadline now) (.parked ∘ .ok)
  | .reattach e t clock => s.ask (fun g => g.reattach e t clock) .parked
  | .receive address body contentType now => s.ask (fun g => g.receive address body contentType now) .received
  | .cancel e reason now => s.ask (fun g => g.cancelExecution e reason now) .cancelled
  | .poll serial clock timerFirst => s.ask (fun g => g.poll serial clock timerFirst) .polled
  | .drop serial now => s.ask (fun g => ((), g.drop serial now)) fun _ => .done
  | .expire at' c => s.ask (fun g => g.expireOverdue at' c) .counted
  | .forget now retention => s.ask (fun g => g.sweepFinished now retention) .counted
  | .process now retention c => s.ask (fun g => g.process now retention c) .processed
  | .request r now uptime => s.ask (fun g => Api.answer g r now uptime) .responded
  | .start disk happens => s.reopen (s.config.validate >>= fun _ => s.config.openStore disk) happens
  | .restart happens => s.reopen s.gate.registry.store.reopen happens

def run (s : Service) : List Call → List Answer × Service
  | [] => ([], s)
  | c :: calls => ((s.step c).1 :: ((s.step c).2.run calls).1, ((s.step c).2.run calls).2)

/-- What can be seen of a service. -/
structure View where
  registry : Registry
  snapshot : String
  waiters : Table Token Waiter
  executions : Table ExecutionId Execution
  handles : Table Nat Handle
  halves : List Half
  results : List (Nat × Outcome WaitOutcome)
  /-- The requests that are out, by whom and as they were sent. -/
  flights : List (ExecutionId × Http.Request)
  /-- What is wrong with the configuration. -/
  fault : Outcome Unit
  config : String
  table : String
  gate : String
  resolver : Option String
  /-- How the endpoint of a job prints, or why it has none. -/
  endpoint : JobId → Option (Outcome String)

def view (s : Service) : View where
  registry := s.gate.registry
  snapshot := Snapshot.write s.gate.registry.store.records.sorted
  waiters := s.gate.waiters
  executions := s.gate.executions
  handles := s.gate.handles
  halves := s.traffic.halves
  results := s.traffic.results
  flights := s.flights.map fun f => (f.execution, f.draft.sent)
  fault := s.config.validate
  config := s.config.text
  table := s.config.endpoints.text
  gate := s.gate.text
  resolver := s.gate.issuer.map fun i => i.endpoints.text
  endpoint job := s.gate.issuer.map fun i => (i.endpoints.resolve job).map Endpoint.text

/-! ## Without secrets -/

def redacted (s : Service) : Service := ⟨s.config.redacted, s.traffic.redacted, s.flights.map Flight.redacted⟩

variable (s : Service)

theorem view_redacted : s.redacted.view = s.view := by
  have flights : s.redacted.flights.map (fun f => (f.execution, f.draft.sent)) =
      s.flights.map fun f => (f.execution, f.draft.sent) := by
    show (s.flights.map Flight.redacted).map _ = _
    rw [List.map_map]
    exact List.map_congr_left fun f _ => congrArg (Prod.mk f.execution) f.draft.sent_redacted
  have issuer : s.redacted.gate.issuer = s.gate.issuer.map Issuer.redacted := rfl
  have resolver : (s.redacted.gate.issuer.map fun i => i.endpoints.text) =
      s.gate.issuer.map fun i => i.endpoints.text := by
    rw [issuer, Option.map_map]
    exact congrArg (Option.map · s.gate.issuer) (funext fun i => i.endpoints.text_redacted)
  have endpoint (job : JobId) : (s.redacted.gate.issuer.map fun i => (i.endpoints.resolve job).map Endpoint.text) =
      s.gate.issuer.map fun i => (i.endpoints.resolve job).map Endpoint.text := by
    rw [issuer, Option.map_map]
    refine congrArg (Option.map · s.gate.issuer) (funext fun i => ?_)
    show (i.endpoints.redacted.resolve job).map Endpoint.text = _
    rw [EndpointTable.resolve_redacted]
    cases i.endpoints.resolve job with
    | error failure => rfl
    | ok e => exact congrArg Except.ok e.text_redacted
  have fault : s.redacted.config.validate = s.config.validate := s.config.validate_redacted
  have config : s.redacted.config.text = s.config.text := s.config.text_redacted
  have table : s.redacted.config.endpoints.text = s.config.endpoints.text := s.config.endpoints.text_redacted
  rw [view, view, flights, resolver, funext endpoint, fault, config, table]
  rfl

theorem ask_redacted {α : Type} {op : Gate → α × Gate} (h : Gate.Blind op) (say : α → Answer) :
    s.redacted.ask op say = (s.ask op say).map id redacted := by
  have told : op s.redacted.gate = (op s.gate).map id Gate.redacted := h.redacted s.gate
  rw [ask, told]
  rfl

theorem takeOff_redacted (e : ExecutionId) (parks : Bool) (result : Outcome Draft) :
    s.redacted.takeOff e parks (result.map Draft.redacted) = (s.takeOff e parks result).map id redacted := by
  have flights (fs : List Flight) : s.flights.map Flight.redacted ++ fs.map Flight.redacted =
      (s.flights ++ fs).map Flight.redacted := List.map_append.symm
  cases result with
  | error failure => exact congrArg (fun fs => (_, (⟨_, _, fs⟩ : Service))) (flights [])
  | ok d =>
    have sent : d.redacted.sent = d.sent := d.sent_redacted
    show (Answer.sent (.ok d.redacted.sent), (⟨_, _, _ ++ [Flight.redacted ⟨e, d, parks⟩]⟩ : Service)) = _
    rw [sent]
    exact congrArg (fun fs => (_, (⟨_, _, fs⟩ : Service))) (flights [⟨e, d, parks⟩])

theorem touchDown_redacted (f : Flight) (x : Exchange) (clock : Clock) :
    s.redacted.touchDown f.redacted x clock = (s.touchDown f x clock).map id redacted := by
  obtain ⟨e, d, parks⟩ := f
  have outcome : x.outcome d.redacted = x.outcome d := x.outcome_redacted d
  cases parks with
  | false =>
    show s.redacted.ask (fun g =>
      ((Issuer.complete g.registry d.redacted e clock.now (x.outcome d.redacted)).1, { g with
        registry := (Issuer.complete g.registry d.redacted e clock.now (x.outcome d.redacted)).2 })) .submitted = _
    simp only [outcome, Issuer.complete_redacted]
    exact s.ask_redacted (fun _ _ => rfl) _
  | true =>
    show s.redacted.ask (fun g => g.finishRun e d.redacted (x.outcome d.redacted) clock) .parked = _
    rw [outcome]
    exact s.ask_redacted (fun i g => g.finishRun_withIssuer i e d (x.outcome d) clock) .parked

theorem reopen_redacted (store : Outcome Store) (happens : TokenOrder) :
    s.redacted.reopen store happens = (s.reopen store happens).map id redacted := by
  have opened : (store >>= fun store => s.redacted.config.openGate store happens) =
      (store >>= fun store => s.config.openGate store happens).map Gate.redacted := by
    cases store with
    | error failure => rfl
    | ok store => exact s.config.openGate_redacted store happens
  rw [reopen, reopen, opened]
  cases store >>= fun store => s.config.openGate store happens <;> rfl

/-- **Whatever is asked of a service, it answers without its secrets as with them, and what it becomes differs in them
only.** -/
theorem step_redacted (c : Call) : s.redacted.step c = (s.step c).map id redacted := by
  cases c with
  | part st =>
    have parts : s.redacted.traffic.step st = (s.traffic.step st).redacted := s.traffic.step_redacted st
    rw [step, step, parts]
    rfl
  | consult f =>
    rw [step, step]
    exact s.ask_redacted (fun _ _ => rfl) _
  | submit e r random =>
    have issuer : s.redacted.gate.issuer = s.gate.issuer.map Issuer.redacted := rfl
    rw [step, step, issuer]
    cases s.gate.issuer with
    | none => rfl
    | some i =>
      show s.redacted.takeOff e false (i.redacted.draft r random) = _
      rw [Issuer.draft_redacted]
      exact s.takeOff_redacted e false (i.draft r random)
  | run e r random now =>
    have begun : s.redacted.gate.beginRun e r random now =
        (s.gate.beginRun e r random now).map (Except.map Draft.redacted) Gate.redacted :=
      s.gate.beginRun_redacted e r random now
    rw [step, step, begun]
    exact takeOff_redacted (s.withGate (s.gate.beginRun e r random now).2) e true _
  | land n x clock =>
    have flight : s.redacted.flights[n]? = s.flights[n]?.map Flight.redacted := List.getElem?_map
    rw [step, step, flight]
    cases s.flights[n]? with
    | none => rfl
    | some f =>
      have left : s.redacted.flights.eraseIdx n = (s.flights.eraseIdx n).map Flight.redacted :=
        List.eraseIdx_map ..
      show ({ s.redacted with flights := s.redacted.flights.eraseIdx n } : Service).touchDown f.redacted x clock = _
      rw [left]
      exact touchDown_redacted { s with flights := s.flights.eraseIdx n } f x clock
  | attach e t deadline now =>
    rw [step, step]
    exact s.ask_redacted (fun i g => g.attach_withIssuer i e t deadline now) _
  | reattach e t clock =>
    rw [step, step]
    exact s.ask_redacted (fun i g => g.reattach_withIssuer i e t clock) _
  | receive address body contentType now =>
    rw [step, step]
    exact s.ask_redacted (fun i g => g.receive_withIssuer i address body contentType now) _
  | cancel e reason now =>
    rw [step, step]
    exact s.ask_redacted (fun i g => g.cancelExecution_withIssuer i e reason now) _
  | poll serial clock timerFirst =>
    rw [step, step]
    exact s.ask_redacted (fun i g => g.poll_withIssuer i serial clock timerFirst) _
  | drop serial now =>
    rw [step, step]
    refine s.ask_redacted (fun i g => ?_) _
    simp only [Gate.drop_withIssuer]
    rfl
  | expire at' c =>
    rw [step, step]
    exact s.ask_redacted (fun i g => g.expireOverdue_withIssuer i at' c) _
  | forget now retention =>
    rw [step, step]
    exact s.ask_redacted (fun i g => g.sweepFinished_withIssuer i now retention) _
  | process now retention c =>
    rw [step, step]
    exact s.ask_redacted (fun i g => g.process_withIssuer i now retention c) _
  | request r now uptime =>
    rw [step, step]
    exact s.ask_redacted (fun i g => Api.answer_withIssuer i g r now uptime) _
  | start disk happens =>
    have valid : s.redacted.config.validate = s.config.validate := s.config.validate_redacted
    rw [step, step, valid]
    exact s.reopen_redacted _ happens
  | restart happens => exact s.reopen_redacted _ happens

theorem run_redacted (calls : List Call) : ∀ s : Service, s.redacted.run calls = (s.run calls).map id redacted := by
  induction calls with
  | nil => exact fun _ => rfl
  | cons c calls ih =>
    intro s
    rw [run, run, step_redacted, Prod.map_snd, ih]
    rfl

end Service

/-- **Secrets stay secret.**  Two services that differ in nothing but the passwords and tokens of their endpoints say
the same when the same is asked of them and their exchanges go the same way, and show the same afterwards. -/
theorem secrets_stay_secret {s s' : Service} (alike : s.redacted = s'.redacted) (calls : List Service.Call) :
    (s.run calls).1 = (s'.run calls).1 ∧ (s.run calls).2.view = (s'.run calls).2.view := by
  have same : (s.run calls).map id Service.redacted = (s'.run calls).map id Service.redacted := by
    rw [← Service.run_redacted, ← Service.run_redacted, alike]
  obtain ⟨said, become⟩ := Prod.mk.inj same
  refine ⟨said, ?_⟩
  rw [← (s.run calls).2.view_redacted, ← (s'.run calls).2.view_redacted]
  exact congrArg Service.view become

/-- Two passwords: what is sent differs, and what is seen does not. -/
theorem passwords_unseen :
    let config (password : String) : Config :=
      { endpoints := ⟨some ⟨"https://cm.example/changes", .basic "svc" password⟩, []⟩ }
    let service (password : String) : Service :=
      ⟨config password, .idle (.start .empty (some (config password).issuer)), []⟩
    let r : ChangeRequest := ⟨"deploy", "7", "roll out", none, none, [], none⟩
    let run : Service.Call := .run default r default .epoch
    let land : Service.Call := .land 0 (.answered (some ⟨201, ByteArray.empty⟩)) ⟨.epoch, 0⟩
    let look : Service.Call := .request ⟨"GET", "/api/v1/waits", none, ByteArray.empty, none⟩ .epoch 0
    ((service "alpha").run [run]).2.flights.map (fun f => f.draft.endpoint.auth) = [.basic "svc" "alpha"] ∧
      ((service "omega").run [run]).2.flights.map (fun f => f.draft.endpoint.auth) = [.basic "svc" "omega"] ∧
      ((service "alpha").run [run, land, look]).2.gate.registry.size = 1 ∧
      ((service "alpha").run [run, land, look]).1 = ((service "omega").run [run, land, look]).1 ∧
      ((service "alpha").run [run, land, look]).2.view = ((service "omega").run [run, land, look]).2.view := by
  intro config service r run land look
  have alike : (service "alpha").redacted = (service "omega").redacted := rfl
  obtain ⟨said, shown⟩ := secrets_stay_secret alike [run, land, look]
  exact ⟨by decide +kernel, by decide +kernel, by decide +kernel, said, shown⟩

end ApprovalGate
