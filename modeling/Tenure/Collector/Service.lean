import Tenure.Collector.Cycle

/-!
# Serving requests

Waiting requests are served one after another, a minor one before a major one,
until none waits. A cycle may leave requests of its own: those of its triggers and
those of listeners.
-/

set_option autoImplicit false

namespace Tenure.Collector

variable {Source Policy Hearer : Type}
variable [MemorySource Source] [PromotionPolicy Policy] [Listener Hearer]
variable {Roots : Type} [RootProvider Roots]

def collect (collector : Collector Source Policy Hearer) (kind : CycleKind)
    (roots : Roots) : Checked (Answer CycleReport × Collector Source Policy Hearer) :=
  match kind with
  | .minor => collector.collectMinor roots
  | .major => collector.collectMajor roots

/-- Serves requests while at most `remaining` cycles can still be numbered, and
answers the reports after those so far, which come in reverse. The first failure
ends the service. -/
def serve (roots : Roots) :
    (remaining : Nat) → (reports : List CycleReport) → Collector Source Policy Hearer →
    Checked (Answer (List CycleReport) × Collector Source Policy Hearer)
  | 0, _, _ => .error .addOverflow
  | remaining + 1, reports, collector =>
    match collector.requests.take with
    | (none, _) => .ok (.ok reports.reverse, collector)
    | (some kind, requests) => do
      match ← { collector with requests }.collect kind roots with
      | (.error failure, collector) => return (.error failure, collector)
      | (.ok report, collector) => serve roots remaining (report :: reports) collector

/-- Serves requests until none waits. Every cycle takes the next number, which has
to be a word, so the numbers that are left bound the cycles. -/
def runPending (collector : Collector Source Policy Hearer) (roots : Roots) :
    Checked (Answer (List CycleReport) × Collector Source Policy Hearer) :=
  match collector.checkPoison with
  | .error failure => .ok (.error failure, collector)
  | .ok () => serve roots (Word.limit - collector.cycle + 1) [] collector

end Tenure.Collector
