import ApprovalGate.Simulation.Tasks
/-!
# Exchanges

Runs and submissions against the scripted change-control system.  With no script left it accepts everything.
-/
namespace ApprovalGate.Simulation.World

/-- The answer when no script is left. -/
def acceptance : Script := .reply { status := 201, body := .obj [("status", .str "success")] } false

def send (w : World) (d : Draft) : Script × World :=
  let message : Message := { method := .post, endpoint := d.endpoint, payload := d.payload }
  let w := { w with sent := w.sent ++ [message] }
  match w.scripts with
  | [] => (acceptance, w)
  | s :: scripts => (s, { w with scripts })

/-- The second half of a run: its handle is announced, or its failure. -/
def conclude (w : World) (name : String) (e : ExecutionId) (d : Draft) (reply : Outcome Reply) (aside : Bool) : World :=
  match w.gate.finishRun e d reply w.clock with
  | (.error failure, gate) => { w with gate }.emit name (.failed failure)
  | (.ok serial, gate) => { w with gate }.park name serial aside

def run (w : World) (name : String) (e : ExecutionId) (r : ChangeRequest) (aside : Bool) : World :=
  match w.gate.beginRun e r w.fresh w.clock.now with
  | (.error failure, gate) => { w with gate }.emit name (.failed failure)
  | (.ok d, gate) =>
    match ({ w with gate }.noteMinted w.blueprint.issuer.tool r.job).send d with
    | (.failure cause, w) => w.conclude name e d (.error (.network cause)) aside
    | (.reply reply false, w) => w.conclude name e d (.ok reply) aside
    | (.reply reply true, w) =>
      let flight : Flight := { name, execution := e, draft := d, reply, hold := aside, dropped := false }
      { w with flights := w.flights ++ [flight] }

/-- Lets the answer go that was held back first; whether there was one. -/
def release (w : World) : Bool × World :=
  match w.flights with
  | [] => (false, w)
  | f :: flights =>
    let w := { w with flights }
    (true, if f.dropped then w else w.conclude f.name f.execution f.draft (.ok f.reply) f.hold)

/-- Submits a request without running its execution; no answer to it is held back. -/
def submit (w : World) (e : ExecutionId) (r : ChangeRequest) : Outcome Submission × World :=
  match w.blueprint.issuer.draft r w.fresh with
  | .error failure => (.error failure, w)
  | .ok d =>
    let (script, w) := (w.noteMinted w.blueprint.issuer.tool r.job).send d
    let reply : Outcome Reply := match script with
      | .failure cause => .error (.network cause)
      | .reply reply _ => .ok reply
    let (result, registry) := Issuer.complete w.gate.registry d e w.clock.now reply
    (result, w.withRegistry registry)

def attach (w : World) (name : String) (e : ExecutionId) (t : Token) (deadline : Option Nat) (aside : Bool) : World :=
  let deadline := deadline.map fun ms => w.clock.elapsed + ms * 1000000
  let (serial, gate) := w.gate.attach e t deadline w.clock.now
  { w with gate }.park name serial aside

def reattach (w : World) (name : String) (e : ExecutionId) (t : Token) (aside : Bool) : Outcome Unit × World :=
  match w.gate.reattach e t w.clock with
  | (.error failure, gate) => (.error failure, { w with gate })
  | (.ok serial, gate) => (.ok (), { w with gate }.park name serial aside)

end ApprovalGate.Simulation.World
