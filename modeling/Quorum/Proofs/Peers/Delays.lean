import Quorum.Proofs.Peers.Manners
import Quorum.Proofs.Regimes

/-!
# The delays of the liveness protocol

The protocol arms its timers with two delays only, the heartbeat interval and the heartbeat timeout,
and never changes them.  As long as a regime admits both, the handlers of the protocol obey it
(`Liveness.Abides.manner`).
-/

namespace Quorum.Liveness

/-- Both delays of the protocol are admitted. -/
structure Abides (admits : Delay → Prop) (liveness : Liveness) : Prop where
  interval : admits liveness.heartbeatInterval
  timeout : admits liveness.heartbeatTimeout

namespace Abides

variable {regime : Regime}

/-- The handlers of the protocol obey. -/
theorem manner :
    Manner (Act.Obeys regime (Abides regime.admits)) (Abides regime.admits) regime.admits where
  pure := .pure
  bind := .bind
  own_bind := .own_bind
  modifyOwn := fun interval timeout => .modifyOwn fun own abides => {
    interval := (interval own).symm ▸ abides.interval
    timeout := (timeout own).symm ▸ abides.timeout }
  ask := .ask
  cancel := .cancel
  isCancelled := .isCancelled
  arm := .arm
  interval := Abides.interval
  timeout := Abides.timeout

/-- A shutdown only cancels and closes. -/
theorem shutdown : Act.Obeys regime (Abides regime.admits) Liveness.shutdown := by
  refine .own_bind fun liveness abides => ?_
  refine .bind (.forM (fun link => (manner.cancelLink link).bind fun _ => .ask _) _) fun _ => ?_
  refine .bind (.forM (fun _ => .bind (.cancel _) fun _ => .ask _) _) fun _ => ?_
  refine .bind (.forM (fun _ => .bind (.cancel _) fun _ => .ask _) _) fun _ => ?_
  refine .bind (.forM (fun _ => .cancel _) _) fun _ => ?_
  exact .setOwn { abides with }

end Abides

end Quorum.Liveness
