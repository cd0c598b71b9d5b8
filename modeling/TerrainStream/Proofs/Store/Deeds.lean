import TerrainStream.Proofs.Store.Accounts

/-! The lives of claims. What a history does to the claims on one slot is told in deeds; a slot's version
counts its claims and its removals, so a claim that has ended cannot be mistaken for a later one. -/

namespace TerrainStream.Store

open Cell

/-- The stage of the claim that is out on a slot. -/
def flight (s : Store) (i : Nat) : Option Stage := ((s.live? i).map (·.stage)).filter (·.isInFlight)

variable {s s' : Store} {i j : Nat} {slot fresh : Slot} {key : Key} {version : UInt32}

theorem flight_live (found : s.live? i = some slot) : s.flight i = (some slot.stage).filter (·.isInFlight) := by
  rw [flight, found, Option.map_some]

theorem flight_vacant (vacant : s.live? i = none) : s.flight i = none := by
  rw [flight, vacant, Option.map_none, Option.filter_none]

theorem flight_put (found : s.live? i = some slot) (kept : fresh.live = slot.live) :
    (s.put i fresh).flight j = if i = j then (some fresh.stage).filter (·.isInFlight) else s.flight j := by
  simp only [flight, live?_put found kept]
  split <;> rfl

theorem flight_idle (found : s.live? i = some slot) (idle : slot.stage.isInFlight = false) : s.flight i = none := by
  simp [flight_live found, idle]

theorem version_put (found : s.live? i = some slot) :
    (s.put i fresh).version j = if i = j then fresh.version else s.version j := by
  rw [Store.version, slot?_put (live?_inside found)]
  split
  · rename_i here
    subst j
    rw [slot?_live found]
    rfl
  · rfl

/-- A slot keeps its version when it is handed out again. -/
theorem version_add (sound : s.Sound) (key : Key) (j : Nat) : (s.add key).1.version j = s.version j := by
  have kept : (s.add key).1.Sound := (perform_outcome sound (.add key)).sound sound
  have settled (s : Store) (i : Nat) :
      (s.settle i key).slots[j]?.elim 0 (·.version) = s.slots[j]?.elim 0 (·.version) := by
    simp only [settle, Array.getElem?_modify]
    split
    · cases s.slots[j]? <;> rfl
    · rfl
  have next (s : Store) : (s.settleNext key).slots[j]?.elim 0 (·.version) = s.slots[j]?.elim 0 (·.version) := by
    simp only [settleNext, Array.getElem?_push]
    split
    · rename_i here
      simp [here, Slot.settle, Slot.blank]
    · rfl
  rw [kept.roomy.version_eq, sound.roomy.version_eq]
  unfold add
  split
  · rfl
  · split
    · exact settled _ _
    · dsimp only
      split
      · exact next s
      · split
        · rename_i grew
          obtain ⟨_, rfl⟩ := grow_cases grew
          exact next _
        · rfl

/-- A removal moves the version of the slot on. -/
theorem version_remove (found : s.index[key]? = some i) (living : s.live? i = some slot) (j : Nat) :
    (s.remove key).1.version j = if i = j then slot.version + 1 else s.version j := by
  have same : (s.remove key).1.slot? j = (s.put i slot.vacate).slot? j := by
    simp only [remove, found, slot?_live living]
    rfl
  rw [Store.version, same]
  exact version_put living

/-- What an operation that is granted does to the claims on a slot. A claim goes by its version. -/
inductive Deed
  | issued (version : UInt32)
  | begun (version : UInt32)
  | finished (version : UInt32)
  | abandoned (version : UInt32)
  /-- The cell was removed from the slot. -/
  | removed
deriving DecidableEq

namespace Deed

/-- The claim that a deed names. -/
def claim? : Deed → Option UInt32
  | issued version | begun version | finished version | abandoned version => some version
  | removed => none

/-- Whether a deed ends the claim that it befalls. -/
def ends : Deed → Bool
  | finished _ | abandoned _ | removed => true
  | issued _ | begun _ => false

/-- Whether a deed moves the version of its slot on. -/
def raises : Deed → Bool
  | issued _ | removed => true
  | begun _ | finished _ | abandoned _ => false

end Deed

/-- The deed of one operation on one slot. -/
def deed? (s : Store) (i : Nat) : Operation → Option Deed
  | .schedule j => if j = i then (s.schedule j).2.map .issued else none
  | .begin j version => if j = i ∧ (s.begin j version).2 then some (.begun version) else none
  | .finish j key version shape placeholder =>
    if j = i ∧ (s.finish j key version shape placeholder).2.isOk then some (.finished version) else none
  | .abandon j version => if j = i ∧ (s.abandon j version).2 then some (.abandoned version) else none
  | .remove key => if (s.remove key).2.any (·.index = i) then some .removed else none
  | .add _ | .tryRetire _ | .retain _ | .release _ | .setActive _ _ => none

/-- The deeds of a history on one slot. -/
def deeds (s : Store) (i : Nat) : List Operation → List Deed
  | [] => []
  | operation :: rest => (s.deed? i operation).toList ++ (s.perform operation).deeds i rest

theorem deeds_append (s : Store) (i : Nat) (history later : List Operation) :
    s.deeds i (history ++ later) = s.deeds i history ++ (s.after history).deeds i later := by
  induction history generalizing s with
  | nil => rfl
  | cons operation rest ih => simp [deeds, ih, after]

/-- From one version and claim that is out to the next, by one deed or none. -/
inductive Turn : UInt32 → Option Stage → Option Deed → UInt32 → Option Stage → Prop
  | quiet (now : UInt32) (out : Option Stage) : Turn now out none now out
  | issued (now : UInt32) : Turn now none (some (.issued (now + 1))) (now + 1) (some .scheduled)
  | begun (now : UInt32) : Turn now (some .scheduled) (some (.begun now)) now (some .generating)
  | finished (now : UInt32) : Turn now (some .generating) (some (.finished now)) now none
  | abandoned (now : UInt32) (stage : Stage) : Turn now (some stage) (some (.abandoned now)) now none
  | removed (now : UInt32) (out : Option Stage) : Turn now out (some .removed) (now + 1) none

private theorem Turn.same (version : s'.version i = s.version i) (out : s'.flight i = s.flight i) :
    Turn (s.version i) (s.flight i) none (s'.version i) (s'.flight i) := by
  rw [version, out]
  exact .quiet _ _

/-- A tenant that is rewritten takes a turn in its own slot, and no other slot does. -/
private theorem Turn.put {deed : Option Deed} (found : s.live? j = some slot) (kept : fresh.live = slot.live)
    (here : j = i → Turn slot.version ((some slot.stage).filter (·.isInFlight)) deed fresh.version
      ((some fresh.stage).filter (·.isInFlight)))
    (elsewhere : j ≠ i → deed = none) :
    Turn (s.version i) (s.flight i) deed ((s.put j fresh).version i) ((s.put j fresh).flight i) := by
  by_cases same : j = i
  · subst i
    rw [version_put found, flight_put found kept, version_live found, flight_live found, if_pos rfl, if_pos rfl]
    exact here rfl
  · rw [elsewhere same]
    refine .same ?_ ?_
    · rw [version_put found, if_neg same]
    · rw [flight_put found kept, if_neg same]

private theorem Turn.kept (found : s.live? j = some slot) (kept : fresh.live = slot.live)
    (version : fresh.version = slot.version) (stage : fresh.stage = slot.stage) :
    Turn (s.version i) (s.flight i) none ((s.put j fresh).version i) ((s.put j fresh).flight i) := by
  refine .put found kept (fun _ => ?_) fun _ => rfl
  rw [version, stage]
  exact .quiet _ _

private theorem add_turn (sound : s.Sound) (i : Nat) (key : Key) :
    Turn (s.version i) (s.flight i) none ((s.add key).1.version i) ((s.add key).1.flight i) := by
  refine .same (version_add sound key i) ?_
  rcases add_cases sound key with ⟨_, _, step⟩ | ⟨s', j, step, admitted, _⟩ | ⟨_, step⟩
  · rw [step]
  · rw [step, flight, admitted.sees]
    split
    · rename_i here
      subst j
      rw [flight_vacant admitted.vacant]
      rfl
    · rfl
  · rw [step]

private theorem remove_turn (sound : s.Sound) (i : Nat) (key : Key) :
    Turn (s.version i) (s.flight i) (s.deed? i (.remove key)) ((s.remove key).1.version i)
      ((s.remove key).1.flight i) := by
  rcases remove_cases sound key with ⟨s', j, slot, step, found, departed, _⟩ | ⟨_, step⟩
  · have moved := version_remove found departed.found i
    rw [step] at moved
    by_cases here : j = i
    · subst j
      have out : s'.flight i = none := flight_vacant (by rw [departed.sees, if_pos rfl])
      simp only [deed?, step, Option.any_some, decide_true, ↓reduceIte]
      rw [moved, if_pos rfl, out, version_live departed.found]
      exact .removed _ _
    · have out : s'.flight i = s.flight i := by rw [flight, departed.sees, if_neg here, flight]
      simp only [deed?, step, Option.any_some, here, decide_false, Bool.false_eq_true, ↓reduceIte]
      exact .same (by rw [moved, if_neg here]) out
  · simp only [deed?, step, Option.any_none, Bool.false_eq_true, ↓reduceIte]
    exact .same rfl rfl

private theorem schedule_turn (s : Store) (i j : Nat) :
    Turn (s.version i) (s.flight i) (s.deed? i (.schedule j)) ((s.schedule j).1.version i)
      ((s.schedule j).1.flight i) := by
  rcases schedule_cases s j with ⟨slot, found, accepts, step⟩ | step
  · simp only [deed?, step, Option.map_some]
    have idle : (some slot.stage).filter (·.isInFlight) = none := by
      cases stage : slot.stage <;> simp_all [Stage.acceptsClaim, Stage.isInFlight]
    refine .put found rfl (fun here => ?_) fun elsewhere => if_neg elsewhere
    rw [if_pos here, idle]
    exact .issued _
  · simp only [deed?, step, Option.map_none, ite_self]
    exact .same rfl rfl

private theorem begin_turn (s : Store) (i j : Nat) (version : UInt32) :
    Turn (s.version i) (s.flight i) (s.deed? i (.begin j version)) ((s.begin j version).1.version i)
      ((s.begin j version).1.flight i) := by
  rcases begin_cases s j version with ⟨slot, found, rfl, stage, step⟩ | step
  · simp only [deed?, step, and_true]
    refine .put found rfl (fun here => ?_) fun elsewhere => if_neg elsewhere
    rw [if_pos here, stage]
    exact .begun _
  · simp only [deed?, step, Bool.false_eq_true, and_false, ↓reduceIte]
    exact .same rfl rfl

private theorem abandon_turn (s : Store) (i j : Nat) (version : UInt32) :
    Turn (s.version i) (s.flight i) (s.deed? i (.abandon j version)) ((s.abandon j version).1.version i)
      ((s.abandon j version).1.flight i) := by
  rcases abandon_cases s j version with ⟨slot, found, rfl, flying, step⟩ | step
  · simp only [deed?, step, and_true]
    refine .put found rfl (fun here => ?_) fun elsewhere => if_neg elsewhere
    rw [if_pos here, Option.filter_some_pos flying, Option.filter_some_neg (by simp [fallback_settled])]
    exact .abandoned _ _
  · simp only [deed?, step, Bool.false_eq_true, and_false, ↓reduceIte]
    exact .same rfl rfl

private theorem finish_turn (s : Store) (i j : Nat) (key : Key) (version : UInt32) (shape : Option Handle)
    (placeholder : Bool) :
    Turn (s.version i) (s.flight i) (s.deed? i (.finish j key version shape placeholder))
      ((s.finish j key version shape placeholder).1.version i)
      ((s.finish j key version shape placeholder).1.flight i) := by
  rcases finish_cases s j key version shape placeholder with ⟨slot, found, rfl, rfl, stage, step⟩ | ⟨reason, step⟩
  · simp only [deed?, step, Except.isOk, Except.toBool, and_true]
    refine .put found rfl (fun here => ?_) fun elsewhere => if_neg elsewhere
    rw [if_pos here, stage]
    exact .finished _
  · simp only [deed?, step, Except.isOk, Except.toBool, Bool.false_eq_true, and_false, ↓reduceIte]
    exact .same rfl rfl

private theorem tryRetire_turn (s : Store) (i j : Nat) :
    Turn (s.version i) (s.flight i) none ((s.tryRetire j).1.version i) ((s.tryRetire j).1.flight i) := by
  rcases step : s.tryRetire j with ⟨s', answer⟩
  cases answer with
  | false =>
    rw [tryRetire_false step]
    exact .same rfl rfl
  | true =>
    obtain ⟨slot, found, _, idle, rfl⟩ := tryRetire_true step
    refine .put found rfl (fun _ => ?_) fun _ => rfl
    rw [Option.filter_some_neg (by simp [idle])]
    exact .quiet _ _

/-- Every operation takes every slot through one turn. -/
theorem perform_turn (sound : s.Sound) (i : Nat) (operation : Operation) :
    Turn (s.version i) (s.flight i) (s.deed? i operation) ((s.perform operation).version i)
      ((s.perform operation).flight i) := by
  cases operation with
  | add key => exact add_turn sound i key
  | remove key => exact remove_turn sound i key
  | schedule j => exact schedule_turn s i j
  | begin j version => exact begin_turn s i j version
  | abandon j version => exact abandon_turn s i j version
  | finish j key version shape placeholder => exact finish_turn s i j key version shape placeholder
  | tryRetire j => exact tryRetire_turn s i j
  | retain j =>
    cases found : s.live? j with
    | none =>
      rw [perform, retain_vacant found]
      exact .same rfl rfl
    | some slot =>
      rw [perform, retain_live found]
      exact .kept found rfl rfl rfl
  | release j =>
    cases found : s.live? j with
    | none =>
      rw [perform, release_vacant found]
      exact .same rfl rfl
    | some slot =>
      rw [perform, release_live found]
      exact .kept found rfl rfl rfl
  | setActive j active =>
    cases found : s.live? j with
    | none =>
      rw [perform, setActive_vacant found]
      exact .same rfl rfl
    | some slot =>
      rw [perform, setActive_live found]
      exact .kept found rfl rfl rfl

end TerrainStream.Store
