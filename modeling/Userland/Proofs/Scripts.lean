import Userland.Proofs.Asking
import Userland.Script.Sync

/-!
# What scripts for locks and channels ask for

An operation of a script touches one lock or the ends of one channel, if any (`SyncOp.only_perform`).
Whoever cares about another lock, or about the ends of another channel, need not look at what it does.
-/

namespace Userland

open ThreadProgram

/-- Whether an action is answered, at once or after a wait. Of the others some end the thread, its program or
    the machine, and one may be tried in vain. -/
def Action.isAnswered : Action → Bool
  | .lockRegistry _ | .endThread | .goto _ | .stop _ => false
  | _ => true

/-- The action touches no lock but `lock` and the ends of no channel but `channel`. It makes neither a
    thread nor a channel, and stops neither the thread nor its program nor the machine. -/
def Action.TouchesOnly (lock : Option LockId) (channel : Option ChannelId) : Action → Prop
  | .spawn .. | .newChannel | .lockRegistry _ | .endThread | .goto _ | .stop _ => False
  | .lock l | .release l | .getCell l | .setCell l _ => lock = some l
  | .hasReceiver c | .settle c _ | .receive c | .dropReceiver c | .claimSender c
  | .claimReceiver c => channel = some c
  | _ => True

namespace SyncOp

open Program

/-- The lock that an operation takes or frees, or whose number it uses. -/
def lock? : SyncOp → Option LockId
  | lock l | unlock l | add l _ => some l
  | _ => none

/-- The channel whose ends an operation uses. -/
def channel? : SyncOp → Option ChannelId
  | send c _ | receive c | dropSender c | dropReceiver c => some c
  | _ => none

section

variable {lock : Option LockId} {channel : Option ChannelId} {l : LockId} {c : ChannelId}

theorem only_asked (a : Action) (touches : a.TouchesOnly lock channel) :
    (act a).Only (Action.TouchesOnly lock channel) fun _ => True := only_act touches fun _ => trivial

theorem only_wake (waiter : Option Tid) :
    (wake waiter).Only (Action.TouchesOnly lock channel) fun _ => True := by
  cases waiter with
  | none => trivial
  | some u => exact only_asked (.unblock u) trivial

theorem only_unlock (own : lock = some l) :
    (ThreadProgram.unlock l).Only (Action.TouchesOnly lock channel) fun _ => True :=
  (only_asked (.release l) own).bind fun front _ => only_wake front

theorem only_settle (own : channel = some c) (value : Option Signal) :
    (settle c value).Only (Action.TouchesOnly lock channel) fun _ => True :=
  (only_asked (.settle c value) own).bind fun waiter _ => only_wake waiter

theorem only_send (own : channel = some c) (value : Signal) :
    (ThreadProgram.send c value).Only (Action.TouchesOnly lock channel) fun _ => True := by
  refine (only_asked (.hasReceiver c) own).bind fun alive _ => ?_
  cases alive with
  | false => trivial
  | true => exact (only_settle own _).bind fun _ _ => trivial

theorem only_restore (level : Option InterruptLevel) :
    (restore level).Only (Action.TouchesOnly lock channel) fun _ => True := by
  cases level with
  | none => trivial
  | some level => exact only_ask trivial fun _ => trivial

theorem only_levelReply : levelReply.Only (Action.TouchesOnly lock channel) fun _ => True :=
  Only.bind (R := fun _ => True) (only_ask trivial fun _ => trivial) fun _ _ => trivial

end

/-- What an operation does touches only its own lock and its own channel, and whoever does it holds other
    locks as often as before. -/
theorem only_perform (s : SyncState) (op : SyncOp) :
    (perform s op).Only (Action.TouchesOnly op.lock? op.channel?)
      fun done => ∀ l, op.lock? ≠ some l → done.2.held.count l = s.held.count l := by
  have same (l : LockId) (_ : op.lock? ≠ some l) : s.held.count l = s.held.count l := rfl
  cases op with
  | send c value =>
    refine (only_asked (.claimSender c) rfl).bind fun there _ => ?_
    cases there with
    | false => exact same
    | true => exact (only_send rfl _).bind fun sent _ => by cases sent <;> exact same
  | receive c =>
    refine (only_asked (.claimReceiver c) rfl).bind fun there _ => ?_
    cases there with
    | false => exact same
    | true =>
      refine (only_asked (.receive c) rfl).bind fun value _ => ?_
      rcases value with _ | ⟨_ | _⟩ <;> exact same
  | dropSender c =>
    refine (only_asked (.claimSender c) rfl).bind fun there _ => ?_
    cases there with
    | false => exact same
    | true => exact (only_settle rfl none).bind fun _ _ => same
  | dropReceiver c =>
    refine (only_asked (.claimReceiver c) rfl).bind fun there _ => ?_
    cases there with
    | false => exact same
    | true => exact (only_asked (.dropReceiver c) rfl).bind fun _ _ => same
  | isReady c =>
    refine (only_asked (.offersReceiver c) trivial).bind fun there _ => ?_
    cases there with
    | false => exact same
    | true => exact (only_asked (.isReady c) trivial).bind fun _ _ => same
  | lock l =>
    refine (only_asked (.lock l) rfl).bind fun _ _ =>
      (only_asked (.getCell l) rfl).bind fun _ _ l' other => ?_
    exact List.count_cons_of_ne fun here => other (congrArg some here)
  | unlock l =>
    rw [perform]
    split
    · refine (only_unlock rfl).bind fun _ _ l' other => ?_
      exact List.count_filter (by simpa using fun here : l' = l => other (here ▸ rfl))
    · exact same
  | add l amount =>
    rw [perform]
    split
    · exact (only_asked (.getCell l) rfl).bind fun value _ =>
        (only_asked (.setCell l (value + amount)) rfl).bind fun _ _ => same
    · exact same
  | isHeld l => exact (only_asked (.isHeld l) trivial).bind fun _ _ => same
  | yield => exact (only_asked .yield trivial).bind fun _ _ => same
  | unblock u => exact (only_asked (.unblock u) trivial).bind fun _ _ => same
  | disableInterrupts =>
    exact Only.bind (R := fun _ => True) (only_ask trivial fun _ => trivial) fun _ _ =>
      only_levelReply.bind fun _ _ => same
  | restoreNewest | restoreOldest =>
    exact (only_restore _).bind fun _ _ => only_levelReply.bind fun _ _ => same

end SyncOp

end Userland
