import TrustTrial.Failure
import TrustTrial.ServerChoice
import TrustTrial.Settings

/-!
# TrustTrial.Readiness

Waiting for the server before the first scenario. One good answer is not enough, since a server may
answer once while it is still starting: readiness is an unbroken streak of good answers. After the
streak a grace period passes.

Time is counted in milliseconds from the start of the wait. It moves by the latencies of the probes
and by sleeping, and by nothing else.
-/

namespace TrustTrial

/-- Good answers in a row, and how many are required. -/
structure Streak where
  required : Nat
  count : Nat
  deriving DecidableEq, Repr

namespace Streak

def new (required : Nat) : Streak := ⟨required, 0⟩

/-- A bad answer ends the streak. -/
def record (s : Streak) (healthy : Bool) : Streak :=
  { s with count := if healthy then s.count + 1 else 0 }

def isReady (s : Streak) : Bool := s.required ≤ s.count

end Streak

namespace Readiness

/-- How a server answers: whether probe `i` succeeds, and how long it takes. -/
structure Health where
  healthy : Nat → Bool
  latency : Nat → Nat

/-- The name of the server in messages. -/
def serverName (settings : ReadinessSettings) : ServerChoice → String
  | .remote url => url
  | .embedded => settings.defaultServer

def dropSlashes (url : String) : String :=
  .ofList (url.toList.reverse.dropWhile (· = '/')).reverse

/-- The address that is probed: a remote server at its base, the embedded one at the health path
of the default server. -/
def target (settings : ReadinessSettings) : ServerChoice → String
  | .remote url => url
  | .embedded => dropSlashes settings.defaultServer ++ settings.healthPath

def milliseconds (seconds : Nat) : Nat := 1000 * seconds

/-! ## Turns -/

/-- A wait under way: how many probes it has made, the time, and the streak. -/
structure Watch where
  made : Nat
  now : Nat
  streak : Streak
  deriving DecidableEq, Repr

/-- How a turn of a wait goes: the time was used up before it, or its probe was answered and made
the streak long enough, or there is a further turn. -/
inductive Turn where
  | late
  | ready (answered : Watch)
  | again (next : Watch)
  deriving DecidableEq, Repr

namespace Watch

def start (settings : ReadinessSettings) : Watch := ⟨0, 0, .new settings.requiredSuccesses⟩

/-- A probe, if there is time for it, and a pause if it fails. -/
def turn (settings : ReadinessSettings) (health : Health) (w : Watch) : Turn :=
  if milliseconds settings.timeout < w.now then .late
  else
    let healthy := health.healthy w.made
    let streak := w.streak.record healthy
    let answered := w.now + health.latency w.made
    if streak.isReady then .ready ⟨w.made + 1, answered, streak⟩
    else if healthy then .again ⟨w.made + 1, answered, streak⟩
    else .again ⟨w.made + 1, answered + milliseconds settings.retryInterval, streak⟩

end Watch

/-! ## Waits -/

/-- When each probe started, when the wait ended, and whether the server was ready. -/
structure Report where
  starts : List Nat
  elapsed : Nat
  ready : Bool
  deriving DecidableEq, Repr

/-- The turns of a wait from a moment on. There is no report if they do not end within the fuel. -/
def probeFrom (settings : ReadinessSettings) (health : Health) : Nat → Watch → Option Report
  | 0, _ => none
  | fuel + 1, w =>
    match w.turn settings health with
    | .late => some ⟨[], w.now, false⟩
    | .ready answered =>
      some ⟨[w.now], answered.now + milliseconds settings.gracePeriod, true⟩
    | .again next =>
      match probeFrom settings health fuel next with
      | none => none
      | some report => some { report with starts := w.now :: report.starts }

def probe (settings : ReadinessSettings) (health : Health) (fuel : Nat) : Option Report :=
  probeFrom settings health fuel (.start settings)

/-- Enough fuel whenever a failed probe takes time, be it by its latency or by the pause after
it. -/
def ample (settings : ReadinessSettings) : Nat :=
  (milliseconds settings.timeout + 1) * (settings.requiredSuccesses + 1) + 1

/-- A larger amount of fuel, to be tried after one that is not enough. -/
def Retried (settings : ReadinessSettings) (health : Health) (more fuel : Nat) : Prop :=
  probe settings health fuel = none ∧ more = 2 * fuel + 1

/-- Fuel with which a wait ends, sought from some amount upwards. The search is as long as it takes;
nothing is said of it for a wait that goes on for ever. -/
def fuelFrom (settings : ReadinessSettings) (health : Health) : Nat → Nat :=
  WellFounded.extrinsicFix (Retried settings health) fun fuel search =>
    if h : probe settings health fuel = none then search (2 * fuel + 1) ⟨h, rfl⟩ else fuel

/-- Enough fuel for a wait, if it ends at all. -/
def enough (settings : ReadinessSettings) (health : Health) : Nat :=
  fuelFrom settings health (ample settings)

def failure (settings : ReadinessSettings) (server : ServerChoice) : Failure :=
  .unreachable (serverName settings server) settings.timeout

/-- What a wait for a server comes to: when it asked which address, when it ended, and its result. -/
structure Course where
  asked : List (Nat × String)
  elapsed : Nat
  result : Except Failure Unit

/-- The address is worked out once, and all probes of a wait ask it. -/
def Report.course (settings : ReadinessSettings) (server : ServerChoice) (report : Report) :
    Course where
  asked := report.starts.map (fun time => (time, target settings server))
  elapsed := report.elapsed
  result := if report.ready then .ok () else .error (failure settings server)

/-- The course of a wait, however long it takes; none if it goes on for ever. -/
def course (settings : ReadinessSettings) (server : ServerChoice) (health : Health) :
    Option Course :=
  (probe settings health (enough settings health)).map (Report.course settings server)

/-- Waits for a server, or says why it was given up. -/
def wait (settings : ReadinessSettings) (server : ServerChoice) (health : Health) (fuel : Nat) :
    Except Failure Unit :=
  match probe settings health fuel with
  | none => .error (failure settings server)
  | some report => (report.course settings server).result

end Readiness
end TrustTrial
