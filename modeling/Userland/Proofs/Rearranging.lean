import Userland.Proofs.Channels
import Userland.Proofs.Effects
import Userland.Proofs.Registry

/-!
# Requests rearrange the ends of channels

A request may move the end of a channel between a thread and its process, or between the records of
children and what the thread awaits. No request makes an end or loses one
(`DeviceRequest.rearranged_serve`).
-/

namespace Userland

/-- How a thread stands when its ends of channels are elsewhere, and nothing else has become of
    them. -/
structure Standing.Rearranged (s s' : Standing) : Prop where
  /-- What it was started from stays. -/
  start : s'.duties.start = s.duties.start
  /-- Its children stay. -/
  born : s'.duties.born = s.duties.born
  /-- What it has made stays. -/
  made : s'.duties.made = s.duties.made
  /-- It may still receive from what it has made. -/
  awaited : ∀ c ∈ s.duties.made, c ∈ s'.duties.awaited
  /-- It has the same sending ends. -/
  senders : ∀ c, c ∈ s'.senders ↔ c ∈ s.senders
  /-- It has the same receiving ends. -/
  receivers : s'.receivers.Perm s.receivers
  /-- Children on record were born. -/
  recorded : ∀ record ∈ s'.own.records, record ∈ s.duties.born
  /-- No child is on record twice. -/
  named : (s'.own.records.map (·.1)).Nodup
  /-- It hosts a process only if it was started for one. -/
  hosted : s'.own.process ≠ none → s.duties.start ≠ none

namespace Standing.Rearranged

variable {S : Tid → Standing} {ch : ChannelMap} {n : Nat} {t : Tid} {s s' : Standing}

/-- Sending ends have moved, and the records are as they were. -/
theorem of_records (h : s.Consistent) (start : s'.duties.start = s.duties.start)
    (born : s'.duties.born = s.duties.born) (made : s'.duties.made = s.duties.made)
    (awaited : s'.duties.awaited = s.duties.awaited) (senders : ∀ c, c ∈ s'.senders ↔ c ∈ s.senders)
    (records : s'.own.records = s.own.records)
    (hosted : s'.own.process ≠ none → s.duties.start ≠ none) : s.Rearranged s' where
  start := start
  born := born
  made := made
  awaited := by
    rw [awaited]
    exact h.made
  senders := senders
  receivers := by rw [Standing.receivers, Standing.receivers, awaited, records]
  recorded := by
    rw [records]
    exact h.recorded
  named := by
    rw [records]
    exact h.named
  hosted := hosted

/-- Nothing that concerns channels has changed. -/
theorem of_same (h : s.Consistent) (duties : s'.duties = s.duties)
    (exits : s'.own.exits = s.own.exits) (records : s'.own.records = s.own.records)
    (hosted : s'.own.process ≠ none → s.own.process ≠ none) : s.Rearranged s' :=
  .of_records h (by rw [duties]) (by rw [duties]) (by rw [duties]) (by rw [duties])
    (fun c => by rw [Standing.senders, Standing.senders, duties, exits]) records (h.hosted ∘ hosted)

/-- Only the lock or a wakeup is concerned. -/
theorem of_ends {own : Belongings} {g g' : Duties} (h : Standing.Consistent ⟨own, g⟩)
    (made : g'.made = g.made) (given : g'.given = g.given) (awaited : g'.awaited = g.awaited)
    (born : g'.born = g.born) (start : g'.start = g.start) :
    Standing.Rearranged ⟨own, g⟩ ⟨own, g'⟩ where
  start := start
  born := born
  made := made
  awaited := by
    rw [awaited]
    exact h.made
  senders c := by rw [Standing.senders, Standing.senders, given]
  receivers := by rw [Standing.receivers, Standing.receivers, awaited]
  recorded := h.recorded
  named := h.named
  hosted := h.hosted

theorem consistent (h : s.Consistent) (moved : s.Rearranged s') : s'.Consistent where
  made c mem := moved.awaited c (moved.made ▸ mem)
  senders c mem := by
    rw [Duties.sources, moved.start]
    exact h.senders c ((moved.senders c).1 mem)
  recorded record mem := by
    rw [moved.born]
    exact moved.recorded record mem
  named := moved.named
  hosted hosts := by
    rw [moved.start]
    exact moved.hosted hosts

/-- It makes no difference to others where a thread keeps its ends. -/
theorem channels (h : Channels S ch n) (moved : (S t).Rearranged s') (inside : t < n) :
    Channels (Function.update S t s') ch n :=
  h.moves (moved.consistent (h.consistent t))
    ⟨moved.start, moved.born, fun _ made => .inl (moved.made ▸ made),
      fun _ mem => .inl (moved.receivers.mem_iff.1 mem)⟩
    moved.made (fun c => (moved.senders c).2) moved.receivers inside

end Standing.Rearranged

namespace Belongings

variable {b : Belongings} {family : Family}

/-- The records of a family are some of a thread's, and changing them leaves the others. -/
theorem records_split (b : Belongings) (family : Family) :
    ∃ rest, b.records.Perm ((b.children family).records ++ rest) ∧
      ∀ f, (family = .process → b.process.isSome = true ∨ f .empty = Children.empty) →
        (b.modifyChildren f family).records.Perm ((f (b.children family)).records ++ rest) := by
  obtain ⟨tid, interrupts, process, hands, kin, initial⟩ := b
  cases family with
  | process =>
    refine ⟨kin.records ++ initial.records, .of_eq (List.append_assoc ..), fun f hosted => .of_eq ?_⟩
    cases process with
    | none =>
      have same : f .empty = .empty := by simpa using hosted rfl
      simp [records, modifyChildren, modifyProcess, children, same]
    | some p => simp [records, modifyChildren, modifyProcess, children]
  | kin =>
    refine ⟨((process.map Process.children).getD Children.empty).records ++ initial.records, ?_,
      fun f _ => ?_⟩
    · simp only [records, children, ← List.append_assoc]
      exact List.perm_append_comm.append_right _
    · simp only [records, children, modifyChildren, ← List.append_assoc]
      exact List.perm_append_comm.append_right _
  | initial =>
    refine ⟨((process.map Process.children).getD Children.empty).records ++ kin.records, ?_, fun f _ => ?_⟩
    · exact List.perm_append_comm
    · exact List.perm_append_comm

/-- No child of a family is on record twice if none of the thread's is. -/
theorem nodup_keys (named : (b.records.map (·.1)).Nodup) (family : Family) :
    (b.children family).keys.Nodup := by
  obtain ⟨rest, split, -⟩ := b.records_split family
  have named := (split.map (·.1)).nodup_iff.1 named
  rw [List.map_append] at named
  exact (List.nodup_append.1 named).1

theorem exits_modifyProcess (b : Belongings) {f : Process → Process}
    (keeps : ∀ p, (f p).exitSignal = p.exitSignal) : (b.modifyProcess f).exits = b.exits := by
  cases hosts : b.process with
  | none => simp [exits, modifyProcess, hosts]
  | some p => simp [exits, modifyProcess, hosts, keeps]

theorem children_modifyProcess (b : Belongings) {f : Process → Process}
    (keeps : ∀ p, (f p).children = p.children) (family : Family) :
    (b.modifyProcess f).children family = b.children family := by
  cases family with
  | process => cases hosts : b.process <;> simp [children, modifyProcess, hosts, keeps]
  | kin | initial => rfl

theorem records_modifyProcess (b : Belongings) {f : Process → Process}
    (keeps : ∀ p, (f p).children = p.children) : (b.modifyProcess f).records = b.records := by
  rw [records, records, b.children_modifyProcess keeps]
  rfl

@[simp] theorem exits_modifyChildren (b : Belongings) (f : Children → Children)
    (family : Family) : (b.modifyChildren f family).exits = b.exits := by
  obtain ⟨tid, interrupts, process, hands, kin, initial⟩ := b
  cases family <;> cases process <;> rfl

theorem process_modifyChildren (b : Belongings) (f : Children → Children) (family : Family) :
    (b.modifyChildren f family).process ≠ none → b.process ≠ none := by
  obtain ⟨tid, interrupts, process, hands, kin, initial⟩ := b
  cases family <;> cases process <;> simp [modifyChildren, modifyProcess]

end Belongings

namespace DeviceRequest

variable {r : DeviceRequest} {s : Standing} {d : Devices}

/-- The requests that move the ends of channels. -/
def movesEnds : DeviceRequest → Bool
  | newProcess .. | takeExitSignal | detachProcess | register .. | takeChild .. | takeChildren _ =>
    true
  | _ => false

theorem movesEnds_of_family? {family : Family} (works : r.family? = some family) : r.movesEnds = true := by
  cases r <;> first | rfl | cases works

theorem exitSignal_of_edit? {f : Process → Process} (edits : r.edit? = some f) (keeps : r.movesEnds = false)
    (p : Process) : (f p).exitSignal = p.exitSignal := by
  cases r <;> first | (cases keeps; done) | (cases edits; done) | (obtain rfl := Option.some.inj edits; rfl)

/-- All other requests leave the ends where they are. -/
theorem rearranged_of_keeps (keeps : r.movesEnds = false) (h : s.Consistent) :
    s.Rearranged ⟨(r.serve s.own d).2.1, r.after (r.serve s.own d).1 s.duties⟩ := by
  obtain ⟨b, g⟩ := s
  have after : r.after (r.serve b d).1 g = g := by
    cases r <;> first | rfl | cases keeps
  have same {b' : Belongings} (exits : b'.exits = b.exits) (records : b'.records = b.records)
      (hosted : b'.process ≠ none → b.process ≠ none) : Standing.Rearranged ⟨b, g⟩ ⟨b', g⟩ :=
    .of_same h rfl exits records hosted
  have edited {f : Process → Process} {hands : Hands} (children : ∀ p, (f p).children = p.children)
      (exitSignal : ∀ p, (f p).exitSignal = p.exitSignal) :
      Standing.Rearranged ⟨b, g⟩ ⟨{ b.modifyProcess f with hands := hands }, g⟩ :=
    same (b.exits_modifyProcess exitSignal) (b.records_modifyProcess children)
      fun hosts none => hosts (by rw [Belongings.modifyProcess, none, Option.map_none])
  rw [after]
  have effect := effect_serve r b d
  change Standing.Rearranged _ ⟨(r.serve b d).2.1, g⟩
  generalize (r.serve b d).2.1 = b' at effect ⊢
  cases effect with
  | quiet | hands | level | destroyProcess => exact same rfl rfl id
  | files | detachSpace | installSpace => exact edited (fun _ => rfl) fun _ => rfl
  | edited _ edits =>
    exact edited (fun p => (sameContents_of_edit? edits p).children) (exitSignal_of_edit? edits keeps)
  | records _ works => cases (movesEnds_of_family? works).symm.trans keeps
  | newProcess | detachProcess => cases keeps

/-- Receiving ends may move between the records and what is awaited. -/
theorem rearranged_modifyChildren {b : Belongings} {g : Duties} {f : Children → Children}
    {family : Family} {awaited : List ChannelId} (h : Standing.Consistent ⟨b, g⟩)
    (receivers : (awaited ++ (b.modifyChildren f family).records.map (·.2)).Perm
      (g.awaited ++ b.records.map (·.2)))
    (made : ∀ c ∈ g.made, c ∈ awaited)
    (recorded : ∀ record ∈ (b.modifyChildren f family).records, record ∈ g.born)
    (named : ((b.modifyChildren f family).records.map (·.1)).Nodup) :
    Standing.Rearranged ⟨b, g⟩ ⟨b.modifyChildren f family, { g with awaited := awaited }⟩ where
  start := rfl
  born := rfl
  made := rfl
  awaited := made
  senders c := by rw [Standing.senders, Standing.senders, Belongings.exits_modifyChildren]
  receivers := receivers
  recorded := recorded
  named := named
  hosted := h.hosted ∘ Belongings.process_modifyChildren b f family

/-- A record is taken from the thread, and its channel is awaited. -/
theorem rearranged_takeRecords {b : Belongings} {g : Duties} {f : Children → Children}
    {family : Family} (taken : List (Tid × ChannelId)) (h : Standing.Consistent ⟨b, g⟩)
    (perm : b.records.Perm (taken ++ (b.modifyChildren f family).records)) :
    Standing.Rearranged ⟨b, g⟩
      ⟨b.modifyChildren f family, { g with awaited := taken.map (·.2) ++ g.awaited }⟩ := by
  refine rearranged_modifyChildren h ?_ (fun c made => List.mem_append_right _ (h.made c made))
    (fun record mem => h.recorded record (perm.mem_iff.2 (List.mem_append_right _ mem))) ?_
  · calc
      _ = taken.map (·.2) ++ (g.awaited ++ (b.modifyChildren f family).records.map (·.2)) :=
        List.append_assoc ..
      List.Perm _ (g.awaited ++ (taken.map (·.2) ++ (b.modifyChildren f family).records.map (·.2))) := by
        rw [← List.append_assoc, ← List.append_assoc]
        exact List.perm_append_comm.append_right _
      List.Perm _ _ := by
        rw [← List.map_append]
        exact (perm.symm.map _).append_left _
  · have named := (perm.map (·.1)).nodup_iff.1 h.named
    rw [List.map_append] at named
    exact (List.nodup_append.1 named).2.1

/-- A new process gets the end on which its exit is told. -/
theorem rearranged_newProcess {b : Belongings} {g : Duties} {name : String} {maxOpenFiles : Nat}
    {exit : ChannelId} (h : Standing.Consistent ⟨b, g⟩) (nobody : b.process = none)
    (started : g.start.map (·.exit) = some exit) (given : exit ∈ g.given) :
    Standing.Rearranged ⟨b, g⟩ ⟨((newProcess name maxOpenFiles exit).serve b d).2.1,
      { g with given := g.given.erase exit }⟩ := by
  refine .of_records h rfl rfl rfl rfl (fun c => ?_) ?_ fun _ none => ?_
  · -- The end is the only one of the thread's that a process has, before and afterwards.
    have exits : b.exits = [] := by simp [Belongings.exits, nobody]
    have exits' : ((newProcess name maxOpenFiles exit).serve b d).2.1.exits = [exit] := rfl
    simp only [Standing.senders, exits, exits', List.append_nil]
    rw [List.mem_append, List.mem_singleton]
    by_cases same : c = exit
    · simp [same, given]
    · simp [same, List.mem_erase_of_ne same]
  · simp [serve, Belongings.records, Belongings.children, Process.fresh, nobody]
  · rw [none] at started
    cases started

/-- The process gives the end back to its thread. -/
theorem rearranged_takeExitSignal (h : s.Consistent) :
    s.Rearranged ⟨(takeExitSignal.serve s.own d).2.1,
      takeExitSignal.after (takeExitSignal.serve s.own d).1 s.duties⟩ := by
  obtain ⟨b, g⟩ := s
  refine .of_records h rfl rfl rfl rfl (fun c => ?_) ?_ (h.hosted ∘ ?_)
  · have exits : (takeExitSignal.serve b d).2.1.exits = [] := by
      cases hosts : b.process <;> simp [serve, Belongings.exits, Belongings.modifyProcess, hosts]
    simp only [Standing.senders, exits, after, List.append_nil]
    exact List.perm_append_comm.mem_iff
  · cases hosts : b.process <;>
      simp [serve, Belongings.records, Belongings.children, Belongings.modifyProcess, hosts]
  · cases hosts : b.process <;> simp [serve, Belongings.modifyProcess, hosts]

/-- A process that is taken out has neither records nor the end. -/
theorem rearranged_detachProcess (h : s.Consistent) (bare : ∀ p, s.own.process = some p → p.Bare) :
    s.Rearranged ⟨(detachProcess.serve s.own d).2.1, s.duties⟩ := by
  obtain ⟨b, g⟩ := s
  cases hosts : b.process with
  | none =>
    refine .of_same h rfl ?_ ?_ (fun some => absurd rfl some) <;>
      simp [serve, Belongings.exits, Belongings.records, Belongings.children, hosts]
  | some p =>
    have bare := bare p hosts
    refine .of_same h rfl ?_ ?_ (fun some => absurd rfl some) <;>
      simp [serve, Belongings.exits, Belongings.records, Belongings.children, hosts,
        bare.exitSignal, bare.children]

/-- The end of a child that is put on record goes from what is awaited to the records. -/
theorem rearranged_register {b : Belongings} {g : Duties} {family : Family} {child : Tid}
    {exit : ChannelId} (h : Standing.Consistent ⟨b, g⟩)
    (hosted : family = .process → b.process.isSome = true) (born : (child, exit) ∈ g.born)
    (awaited : exit ∈ g.awaited) (unmade : exit ∉ g.made) (new : child ∉ b.records.map (·.1)) :
    Standing.Rearranged ⟨b, g⟩ ⟨b.modifyChildren (·.register child exit) family,
      { g with awaited := g.awaited.erase exit }⟩ := by
  obtain ⟨rest, before, after⟩ := b.records_split family
  -- The records of the family are the only ones that change, by one at the end.
  have fresh := Belongings.notMem_keys new family
  have perm : (b.modifyChildren (·.register child exit) family).records.Perm
      ((child, exit) :: b.records) :=
    (after _ fun same => .inl (hosted same)).trans
      (((Children.records_register fresh).append_right rest).trans (before.symm.cons _))
  refine rearranged_modifyChildren h ?_ (fun c made => ?_) (fun record mem => ?_) ?_
  · calc
      List.Perm _ (g.awaited.erase exit ++ exit :: b.records.map (·.2)) :=
        (perm.map _).append_left _
      List.Perm _ (exit :: g.awaited.erase exit ++ b.records.map (·.2)) := List.perm_middle
      List.Perm _ _ := (List.perm_cons_erase awaited).symm.append_right _
  · exact (List.mem_erase_of_ne fun same : c = exit => unmade (same ▸ made)).2 (h.made c made)
  · rcases List.mem_cons.1 (perm.mem_iff.1 mem) with rfl | mem
    · exact born
    · exact h.recorded record mem
  · rw [(perm.map _).nodup_iff, List.map_cons, List.nodup_cons]
    exact ⟨new, h.named⟩

/-- The end of a child that is taken off the records is awaited. -/
theorem rearranged_takeChild (h : s.Consistent) (family : Family) (pid : Int32) :
    s.Rearranged ⟨((takeChild family pid).serve s.own d).2.1,
      (takeChild family pid).after ((takeChild family pid).serve s.own d).1 s.duties⟩ := by
  obtain ⟨b, g⟩ := s
  cases found : (b.children family).find? pid with
  | none =>
    simp only [serve, found]
    exact .of_same h rfl rfl rfl id
  | some record =>
    obtain ⟨child, exit⟩ := record
    obtain ⟨rest, before, after⟩ := b.records_split family
    have perm := after (·.remove child) fun _ => .inr rfl
    have mem := (Children.mem_of_find? found).1
    have distinct := b.nodup_keys h.named family
    simp only [serve, found]
    exact rearranged_takeRecords [(child, exit)] h
      (before.trans (((Children.records_remove distinct mem).append_right rest).trans
        (perm.symm.cons _)))

/-- No end of a channel is made or lost, whatever is asked for. -/
theorem rearranged_serve (permitted : r.Permitted s) (h : s.Consistent) :
    s.Rearranged ⟨(r.serve s.own d).2.1, r.after (r.serve s.own d).1 s.duties⟩ := by
  cases moves : r.movesEnds with
  | false => exact rearranged_of_keeps moves h
  | true =>
    cases r with
    | newProcess name maxOpenFiles exit =>
      obtain ⟨nobody, started, given⟩ := permitted
      exact rearranged_newProcess h nobody started given
    | takeExitSignal => exact rearranged_takeExitSignal h
    | detachProcess => exact rearranged_detachProcess h permitted.2
    | register family child exit =>
      obtain ⟨hosted, born, awaited, unmade, new, -⟩ := permitted
      exact rearranged_register h hosted born awaited unmade new
    | takeChild family pid => exact rearranged_takeChild h family pid
    | takeChildren family =>
      obtain ⟨rest, before, after⟩ := s.own.records_split family
      have perm := after (fun _ => .empty) fun _ => .inr rfl
      exact rearranged_takeRecords _ h (before.trans (perm.symm.append_left _))
    | _ => cases moves

end DeviceRequest

end Userland
