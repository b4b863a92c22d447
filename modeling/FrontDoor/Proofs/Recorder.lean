import FrontDoor.Proofs.Metrics.Counts
import FrontDoor.Recorder

/-!
# What a recorder leaves behind

`failAll_eq`: of a list of failures the first gives the status and every one is counted.
-/

namespace FrontDoor.Recorder

theorem failAll_eq (r : Recorder) (m : RequestMetrics) (statuses : List Nat) :
    r.failAll m statuses =
      (⟨r.method, r.failure?.or statuses.head?⟩,
        m.countErrors keyEndpoint r.method.name statuses) := by
  induction statuses generalizing r m with
  | nil => simp [failAll]
  | cons status rest ih =>
    have hcons : r.failAll m (status :: rest) =
        (r.fail m status).1.failAll (r.fail m status).2 rest := rfl
    rw [hcons, ih]
    cases h : r.failure? <;> simp [fail, h]

theorem failAll_start (method : Method) (m : RequestMetrics) (statuses : List Nat) :
    (start method).failAll m statuses =
      (⟨method, statuses.head?⟩,
        m.countErrors keyEndpoint method.name statuses) :=
  failAll_eq (start method) m statuses

end FrontDoor.Recorder
