import TerrainStream.Proofs.Residency.Steady

/-! A pass over nothing new. Events that have to do with claims only, and bodies that stay where they are, leave
references and activation as they were. -/

namespace TerrainStream.Residency

open Cell Physics Store Collision

/-- Whether an event has to do with claims only. -/
def Event.IsCalm : Event → Prop
  | .snapshotUnavailable _ | .claimAbandoned _ | .prioritized _ _ => True
  | _ => False

instance : DecidablePred Event.IsCalm
  | .snapshotUnavailable _ | .claimAbandoned _ | .prioritized _ _ => .isTrue trivial
  | .bodyAdded _ | .bodyRemoved _ | .requested _ | .released _ | .voxelEdited _ | .cellUnloaded _
  | .configured _ _ | .shutdown => .isFalse id

/-- Whether each body needs the cells that its tracker has adopted, as far as it needs any. -/
def Planner.Rests (p : Planner) (probe : BodyId → Option Pose) : Prop :=
  ∀ (body : BodyId) tracker, p.trackers[body]? = some tracker →
    ∀ cells, tracker.needs probe p.grid p.margins = some cells → cells = tracker.cells

instance (p : Planner) (probe : BodyId → Option Pose) : Decidable (p.Rests probe) :=
  decidable_of_iff
    (∀ entry ∈ p.trackers.toList, ∀ cells ∈ entry.2.needs probe p.grid p.margins, cells = entry.2.cells) <| by
      simp only [Planner.Rests, Prod.forall, Std.ExtTreeMap.mem_toList_iff_getElem?_eq_some, Option.mem_def]

/-- Active and wanted cells are the same as far as the store has them: no cell is active that is not wanted, and every
wanted cell that is there is active. -/
structure Lined (planner : Planner) (store : Store) : Prop where
  wanted : ∀ key, planner.active.contains key = true → planner.wanted.contains key = true
  active : ∀ key, planner.wanted.contains key = true → (store.index[key]?).isSome → planner.active.contains key = true

theorem Planner.wanted_trackers {p p' : Planner} (same : p'.trackers = p.trackers) : p'.wanted = p.wanted := by
  rw [wanted, same, wanted]

namespace Desk

variable {d d' d'' : Desk} {key : Key} {batch queued : List Event} {probe : BodyId → Option Pose}

private theorem prioritize_tuning (d : Desk) (key : Key) (priority : Priority) :
    (d.prioritize key priority).planner.grid = d.planner.grid ∧
      (d.prioritize key priority).planner.margins = d.planner.margins := by
  have claimed (index : Nat) : (d.claim key index priority).1.planner.grid = d.planner.grid ∧
      (d.claim key index priority).1.planner.margins = d.planner.margins := by
    unfold Desk.claim
    split <;> exact ⟨rfl, rfl⟩
  unfold prioritize
  split
  · exact ⟨rfl, rfl⟩
  · split
    · exact ⟨rfl, rfl⟩
    · rename_i index _
      dsimp only
      split
      · split <;> exact claimed index
      · exact ⟨rfl, rfl⟩

/-- Calm events are clerical. -/
theorem applyEvents_calm (calm : ∀ e ∈ batch, e.IsCalm) (d : Desk) : ∃ d', d.applyEvents batch = .ok d' ∧
    Clerical d d' ∧ d'.planner.grid = d.planner.grid ∧ d'.planner.margins = d.planner.margins := by
  induction batch generalizing d with
  | nil => exact ⟨d, rfl, .refl, rfl, rfl⟩
  | cons e batch ih =>
    obtain ⟨next, first, clerical, grid, margins⟩ : ∃ next, d.applyEvent e = .ok next ∧ Clerical d next ∧
        next.planner.grid = d.planner.grid ∧ next.planner.margins = d.planner.margins := by
      have calm := calm e List.mem_cons_self
      cases e with
      | snapshotUnavailable key => exact ⟨_, rfl, .single (.note (by constructor <;> rfl)), rfl, rfl⟩
      | claimAbandoned key => exact ⟨_, rfl, .single (.note (by constructor <;> rfl)), rfl, rfl⟩
      | prioritized key priority =>
        exact ⟨_, rfl, prioritize_clerical d key priority, prioritize_tuning d key priority⟩
      | _ => exact calm.elim
    obtain ⟨last, rest, later, grid', margins'⟩ := ih (fun e listed => calm e (List.mem_cons_of_mem _ listed)) next
    exact ⟨last, foldlM_cons_ok.mpr ⟨next, first, rest⟩, clerical.trans later, grid'.trans grid, margins'.trans margins⟩

/-- A tracker that adopts the cells it has takes no reference and drops none. -/
private theorem follow_adopted {body : BodyId} {tracker : Tracker} {needed : Option Cells}
    (found : d.planner.trackers[body]? = some tracker) (same : ∀ cells, needed = some cells → cells = tracker.cells) :
    d.follow (body, needed) = .ok d := by
  cases needed with
  | none => rfl
  | some cells =>
    obtain rfl := same cells rfl
    have none (set : KeySet) : (set \ set).toList = [] := by
      refine Table.listed_bare fun key => ?_
      rw [Std.ExtTreeSet.contains_diff]
      cases set.contains key <;> rfl
    have kept : d.planner.trackers.insert body tracker = d.planner.trackers := Table.insert_same found
    simp only [follow, found, Tracker.adopt, none, kept]
    rfl

/-- While the bodies rest, following them does nothing. -/
theorem followAll_rests (rests : d.planner.Rests probe) : d.followAll probe = .ok d := by
  have listed (body : BodyId) (tracker : Tracker) (member : (body, tracker) ∈ d.planner.trackers.toList) :
      d.follow (body, tracker.needs probe d.planner.grid d.planner.margins) = .ok d :=
    follow_adopted (Table.mem_toList.mp member) fun cells => rests body tracker (Table.mem_toList.mp member) cells
  unfold followAll
  generalize d.planner.trackers.toList = trackers at listed
  induction trackers with
  | nil => rfl
  | cons entry trackers ih =>
    rw [List.map_cons]
    exact foldlM_cons_ok.mpr ⟨d, listed entry.1 entry.2 List.mem_cons_self,
      ih fun body tracker later => listed body tracker (List.mem_cons_of_mem _ later)⟩

private theorem switchAll_planner (enabled : Bool) (keys : List Key) (d : Desk) :
    (keys.foldl (·.switch enabled) d).planner = d.planner := by
  induction keys generalizing d with
  | nil => rfl
  | cons key keys ih =>
    refine (ih (d.switch enabled key)).trans ?_
    unfold Desk.switch
    split <;> rfl

theorem activate_planner (d : Desk) : d.activate.planner = { d.planner with active := d.planner.wanted } := by
  change { (List.foldl _ (List.foldl _ d _) _ : Desk).planner with active := d.planner.wanted } = _
  rw [switchAll_planner, switchAll_planner]

private theorem switchAll_absent {keys : List Key} (absent : ∀ key ∈ keys, d.store.index[key]? = none) (enabled : Bool) :
    keys.foldl (·.switch enabled) d = d := by
  induction keys with
  | nil => rfl
  | cons key keys ih =>
    have gone : d.store.indexOf key = none := absent key List.mem_cons_self
    have first : d.switch enabled key = d := by simp only [Desk.switch, gone]
    rw [List.foldl_cons, first]
    exact ih fun key listed => absent key (List.mem_cons_of_mem _ listed)

/-- Activation has nothing to switch when the active cells are those wanted. -/
theorem activate_lined (lined : Lined d.planner d.store) :
    d.activate = { d with planner := { d.planner with active := d.planner.wanted } } := by
  have on : (d.planner.wanted \ d.planner.active).toList.foldl (·.switch true) d = d := by
    refine switchAll_absent (fun key listed => ?_) true
    rw [Std.ExtTreeSet.mem_toList, ← Std.ExtTreeSet.contains_iff_mem, Std.ExtTreeSet.contains_diff] at listed
    obtain ⟨wanted, passive⟩ := Bool.and_eq_true_iff.mp listed
    by_contra there
    rw [lined.active key wanted (Option.isSome_iff_ne_none.mpr there)] at passive
    cases passive
  have off : (d.planner.active \ d.planner.wanted).toList = [] := by
    refine Table.listed_bare fun key => ?_
    rw [Std.ExtTreeSet.contains_diff]
    cases active : d.planner.active.contains key with
    | false => rfl
    | true => rw [lined.wanted key active]; rfl
  simp only [activate, on, off, List.foldl_nil]

/-- Two desks between which nothing is taken, dropped or switched: the cells that are left are where they were, with
their references and flags, and the simulation is not told to switch anything. -/
structure Undisturbed (d d' : Desk) : Prop extends Steady d d' where
  left : ∀ key : Key, (d'.store.index[key]?).isSome → d'.store.index[key]? = d.store.index[key]?
  lit : ∀ key : Key, (d'.store.index[key]?).isSome → d'.store.isLit key = d.store.isLit key
  active : ∀ key : Key, (d'.store.index[key]?).isSome → d'.planner.active.contains key = d.planner.active.contains key
  fewer : ∀ key, d'.planner.active.contains key = true → d.planner.active.contains key = true
  activated : d'.report.activated = d.report.activated
  deactivated : d'.report.deactivated = d.report.deactivated
  told : ∃ sent, d'.commands.letters.toList = d.commands.letters.toList ++ sent ∧
    ∀ c ∈ sent, ∃ key shape, c = .remove key shape

theorem Undisturbed.refl (sound : d.store.Sound) : Undisturbed d d :=
  ⟨.refl sound, fun _ _ => rfl, fun _ _ => rfl, fun _ _ => rfl, fun _ active => active, rfl, rfl, [],
    (List.append_nil _).symm, fun _ none => absurd none List.not_mem_nil⟩

theorem Undisturbed.trans (first : Undisturbed d d') (second : Undisturbed d' d'') : Undisturbed d d'' := by
  have before (key : Key) (there : (d''.store.index[key]?).isSome) : (d'.store.index[key]?).isSome :=
    second.left key there ▸ there
  obtain ⟨sent, letters, plain⟩ := first.told
  obtain ⟨sent', letters', plain'⟩ := second.told
  refine ⟨first.toSteady.trans second.toSteady, fun key there => ?_, fun key there => ?_, fun key there => ?_,
    fun key active => first.fewer key (second.fewer key active), second.activated.trans first.activated,
    second.deactivated.trans first.deactivated, sent ++ sent', ?_, fun c listed => ?_⟩
  · exact (second.left key there).trans (first.left key (before key there))
  · exact (second.lit key there).trans (first.lit key (before key there))
  · exact (second.active key there).trans (first.active key (before key there))
  · rw [letters', letters, List.append_assoc]
  · rcases List.mem_append.mp listed with early | late
    · exact plain c early
    · exact plain' c late

theorem Framed.undisturbed (framed : Framed d d') (sound : d.store.Sound) : Undisturbed d d' := by
  have steady := framed.steady sound
  obtain ⟨_, _, index⟩ := outline_level framed.outline
  refine ⟨steady, fun key _ => by rw [index], fun key _ => ?_, fun key _ => by rw [framed.active],
    fun key active => framed.active ▸ active, framed.activated, framed.deactivated, [], ?_,
    fun _ none => absurd none List.not_mem_nil⟩
  · exact (alike_outline framed.outline).isLit sound steady.sound key
  · rw [framed.commands, List.append_nil]

theorem evict_undisturbed {index : Nat} (sound : d.store.Sound) (ready : d.commands.isOpen = true) {store : Store}
    (found : d.store.indexOf key = some index) (retired : d.store.tryRetire index = (store, true)) :
    Undisturbed d ({ d with store, planner := forget d.planner key }.evict key) := by
  have steady := evict_steady sound found retired
  have counts : ({ d with store, planner := forget d.planner key }.evict key).report.activated = d.report.activated ∧
      ({ d with store, planner := forget d.planner key }.evict key).report.deactivated = d.report.deactivated := by
    unfold evict
    split <;> exact ⟨rfl, rfl⟩
  obtain ⟨s', slot, report, departed, kept, _, _, step, _, _⟩ := evict_cases sound found retired
  rw [step] at steady counts ⊢
  have apart {other : Key} (there : (s'.index[other]?).isSome) : key ≠ other := by
    rintro rfl
    rw [departed.gone] at there
    cases there
  refine ⟨steady, fun other there => departed.index_other (apart there), fun other there => ?_, fun other there => ?_,
    fun other active => ?_, counts.1, counts.2, ?_⟩
  · exact (departed.isLit sound other).trans (if_neg (apart there))
  · change (d.planner.active.erase key).contains other = _
    rw [Table.contains_erase, decide_eq_false (apart there)]
    rfl
  · rw [show (forget d.planner key).active = d.planner.active.erase key from rfl, Table.contains_erase] at active
    exact (Bool.and_eq_true_iff.mp active).2
  · cases slot.shape with
    | none => exact ⟨[], (List.append_nil _).symm, fun _ none => absurd none List.not_mem_nil⟩
    | some shape =>
      refine ⟨[.remove key shape], Mailbox.post_letters ready _, fun c listed => ?_⟩
      exact ⟨key, shape, List.mem_singleton.mp listed⟩

theorem sweep_undisturbed (sound : d.store.Sound) (ready : d.commands.isOpen = true) : Undisturbed d d.sweep := by
  unfold sweep
  generalize due d.planner.leaving d.planner.passes = keys
  induction keys generalizing d with
  | nil => exact .refl sound
  | cons key keys ih =>
    have first : Undisturbed d (d.sweepOne key) := by
      rcases sweepOne_cases d key with noted | ⟨index, store, found, _, retired, step⟩
      · exact noted.framed.undisturbed sound
      · rw [step]
        exact evict_undisturbed sound ready found retired
    exact first.trans (ih first.sound ((sweepOne_acts d key).stillOpen.1.trans ready))

/-- What follows upon activation disturbs nothing. -/
theorem settle_undisturbed (sound : d.store.Sound) (ready : d.commands.isOpen = true) :
    Undisturbed d.activate d.settle.closed := by
  have swept := sweep_undisturbed (activate_steady sound).sound ((activate_acts d).stillOpen.1.trans ready)
  have claimed := (claims_clerical d.activate.sweep).framed.undisturbed swept.sound
  have closed := (closed_noted d.settle).framed.undisturbed claimed.sound
  exact (swept.trans claimed).trans closed

/-- Nothing that leaves references and flags alone puts the active cells out of line. -/
theorem Undisturbed.lined (undisturbed : Undisturbed d d') (lined : Lined d.planner d.store) :
    Lined d'.planner d'.store := by
  have same := Planner.wanted_trackers undisturbed.trackers
  refine ⟨fun key active => ?_, fun key wanted there => ?_⟩
  · rw [same]
    exact lined.wanted key (undisturbed.fewer key active)
  · rw [undisturbed.active key there]
    exact lined.active key (same ▸ wanted) (undisturbed.left key there ▸ there)

/-- A pass that succeeds leaves the active cells in line, whatever came before it. -/
theorem pass_lined (sound : d.store.Sound) (ready : d.commands.isOpen = true) (passed : d.pass queued probe = .ok d') :
    Lined d'.planner d'.store := by
  obtain ⟨applied, followed, applying, following, rfl⟩ := pass_cases passed
  have counted : Counted (d.opened (d.planner.inbox ++ queued).length) followed := by
    have first := applyEvents_counted (d.opened (d.planner.inbox ++ queued).length) (d.planner.inbox ++ queued)
    have second := followAll_counted applied probe
    rw [applying] at first
    rw [following] at second
    exact first.trans second
  have sound : followed.store.Sound := counted.sound sound
  have ready : followed.commands.isOpen = true := (congrArg Mailbox.isOpen counted.quiet.1).trans ready
  refine (settle_undisturbed sound ready).lined ?_
  rw [activate_planner]
  exact ⟨fun _ active => active, fun _ wanted _ => wanted⟩

/-- A pass with calm events over bodies at rest succeeds and disturbs nothing, if the active cells are in line: it
counts nothing as taken, dropped or switched, and the cells that are left are active as they were. -/
theorem pass_rests (sound : d.store.Sound) (ready : d.commands.isOpen = true) (lined : Lined d.planner d.store)
    (calm : ∀ e ∈ d.planner.inbox ++ queued, e.IsCalm) (rests : d.planner.Rests probe) :
    ∃ d' before, d.pass queued probe = .ok d' ∧ Undisturbed before d' ∧
      before.store.outline = d.store.outline ∧ before.commands = d.commands ∧
      before.planner.trackers = d.planner.trackers ∧ before.planner.active = d.planner.wanted ∧
      before.report.acquired = 0 ∧ before.report.released = 0 ∧
      before.report.activated = 0 ∧ before.report.deactivated = 0 := by
  obtain ⟨applied, applying, clerical, grid, margins⟩ :=
    applyEvents_calm calm (d.opened (d.planner.inbox ++ queued).length)
  have framed := clerical.framed
  have following : applied.followAll probe = .ok applied := by
    refine followAll_rests fun body tracker found cells needed => ?_
    rw [grid, margins] at needed
    rw [framed.trackers] at found
    exact rests body tracker found cells needed
  have kept := framed.undisturbed (show (d.opened _).store.Sound from sound)
  have taking : applied.commands.isOpen = true := (congrArg Mailbox.isOpen framed.commands).trans ready
  have still := activate_lined (kept.lined ⟨lined.wanted, lined.active⟩)
  have same : applied.planner.wanted = d.planner.wanted := Planner.wanted_trackers framed.trackers
  refine ⟨applied.settle.closed, applied.activate, ?_, settle_undisturbed kept.sound taking, ?_⟩
  · exact map_ok.mpr ⟨applied, bind_ok.mpr ⟨applied, applying, following⟩, rfl⟩
  · rw [still]
    exact ⟨framed.outline, framed.commands, framed.trackers, same, framed.acquired, framed.released, framed.activated,
      framed.deactivated⟩

end Desk

end TerrainStream.Residency
