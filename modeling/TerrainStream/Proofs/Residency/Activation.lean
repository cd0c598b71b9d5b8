import TerrainStream.Proofs.Collision.Agreement
import TerrainStream.Proofs.Residency.Steady

/-! What is switched on. The planner's active cells are the cells that some tracker wants active, they are
the cells whose flag is set in the store, and the commands that wait bring the simulation to the same. -/

namespace TerrainStream.Residency

open Cell Physics Store Collision

/-- The planner's active cells are those switched on in the store, and the simulation hears of it. -/
structure Lit (planner : Planner) (store : Store) (commands : List Command) (held : List Holding) : Prop where
  flags : ∀ key, planner.active.contains key = store.isLit key
  fits : ∀ (body : BodyId) tracker, planner.trackers[body]? = some tracker → tracker.cells.Fits
  agreed : Agreed store commands held

private theorem wanted_fold (entries : List (BodyId × Tracker)) (all : KeySet) (key : Key) :
    (entries.foldl (fun all entry => all ∪ entry.2.cells.active) all).contains key =
      (all.contains key || entries.any (·.2.cells.active.contains key)) := by
  induction entries generalizing all with
  | nil => simp
  | cons entry entries ih => rw [List.foldl_cons, ih, List.any_cons, Std.ExtTreeSet.contains_union, Bool.or_assoc]

/-- A cell is wanted if some tracker wants it active. -/
theorem Planner.wanted_iff (p : Planner) (key : Key) :
    p.wanted.contains key = true ↔
      ∃ (body : BodyId) (tracker : Tracker), p.trackers[body]? = some tracker ∧ tracker.cells.active.contains key = true := by
  rw [wanted, Std.ExtTreeMap.foldl_eq_foldl_toList, wanted_fold]
  simp

theorem followers_pos {trackers : Std.ExtTreeMap BodyId Tracker} {body : BodyId} {tracker : Tracker} {key : Key}
    (found : trackers[body]? = some tracker) (needed : tracker.cells.resident.contains key = true) :
    0 < followers trackers key := by
  rw [followers_erase found, needed]
  exact Nat.succ_pos _

namespace Desk

variable {d d' : Desk} {held : List Holding} {key : Key} {index : Nat}

/-- What a pass leaves: references and holders agree, the active cells are the wanted ones, and store and
simulation follow. -/
structure Tuned (d : Desk) (held : List Holding) : Prop where
  balanced : Balanced d
  lit : Lit d.planner d.store d.commands.letters.toList held
  wanted : ∀ key, d.planner.active.contains key = d.planner.wanted.contains key

theorem Count.lit (act : Count d d') (sound : d.store.Sound)
    (lit : Lit d.planner d.store d.commands.letters.toList held) :
    Lit d'.planner d'.store d'.commands.letters.toList held := by
  obtain ⟨kept, alike⟩ := act.alike sound
  obtain ⟨commands, _, active⟩ := act.quiet
  refine ⟨?_, ?_, ?_⟩
  · intro key
    rw [active, lit.flags, alike.isLit sound kept]
  · intro body tracker found
    cases act with
    | clerk act =>
      rw [act.framed.trackers] at found
      exact lit.fits body tracker found
    | enroll holds known =>
      rcases known body tracker found with before | fits
      · exact lit.fits body tracker before
      · exact fits
    | enter | retain | release => exact lit.fits body tracker found
  · rw [commands]
    exact lit.agreed.alike alike

theorem Counted.lit (counted : Counted d d') (sound : d.store.Sound)
    (lit : Lit d.planner d.store d.commands.letters.toList held) :
    d'.store.Sound ∧ Lit d'.planner d'.store d'.commands.letters.toList held := by
  induction counted with
  | refl => exact ⟨sound, lit⟩
  | tail _ act ih => exact ⟨(act.alike ih.1).1, act.lit ih.1 ih.2⟩

/-- A cell that nobody references is wanted by nobody. -/
theorem unreferenced_unwanted (balanced : Balanced d)
    (fits : ∀ (body : BodyId) tracker, d.planner.trackers[body]? = some tracker → tracker.cells.Fits)
    (free : d.store.refsOf key = 0) : d.planner.wanted.contains key = false := by
  by_contra some
  rw [Bool.not_eq_false, Planner.wanted_iff] at some
  obtain ⟨body, tracker, found, wanted⟩ := some
  have needed := followers_pos found (fits body tracker found key wanted)
  have even := balanced.even key
  rw [free, Planner.holders] at even
  omega

theorem switch_index (d : Desk) (enabled : Bool) (key : Key) : (d.switch enabled key).store.index = d.store.index := by
  unfold switch
  split
  · rfl
  · rename_i index _
    cases living : d.store.live? index with
    | none => simp only [setActive_vacant living]
    | some slot => simp only [setActive_live living, put_index]

theorem switch_lit (sound : d.store.Sound) (ready : d.commands.isOpen = true)
    (agreed : Agreed d.store d.commands.letters.toList held) (enabled : Bool) (key : Key) :
    Agreed (d.switch enabled key).store (d.switch enabled key).commands.letters.toList held ∧
    ∀ other, (d.switch enabled key).store.isLit other =
      if key = other ∧ (d.store.index[key]?).isSome then enabled else d.store.isLit other := by
  rcases switch_cases sound enabled key with ⟨i, slot, report, living, owner, step, _⟩ | ⟨absent, step⟩
  · have kept : ({ slot with active := enabled } : Slot).live = slot.live := rfl
    have found := sound.indexed living
    subst owner
    rw [step]
    refine ⟨?_, ?_⟩
    · rw [Mailbox.post_letters ready]
      exact agreed.switched living enabled
    · intro other
      change (d.store.put i { slot with active := enabled }).isLit other = _
      rw [isLit_put sound living kept, found]
      simp
  · rw [step]
    refine ⟨agreed, ?_⟩
    intro other
    rw [absent]
    simp

/-- Switching several cells sets the flags of those that are in the store. -/
theorem switchAll_lit (sound : d.store.Sound) (ready : d.commands.isOpen = true)
    (agreed : Agreed d.store d.commands.letters.toList held) (enabled : Bool) (keys : List Key) :
    let d' := keys.foldl (·.switch enabled) d
    d'.store.Sound ∧ d'.commands.isOpen = true ∧ d'.store.index = d.store.index ∧
    Agreed d'.store d'.commands.letters.toList held ∧
    ∀ other, d'.store.isLit other =
      if other ∈ keys ∧ (d.store.index[other]?).isSome then enabled else d.store.isLit other := by
  induction keys generalizing d with
  | nil => exact ⟨sound, ready, rfl, agreed, by simp⟩
  | cons key keys ih =>
    have kept := (switch_steady sound enabled key).sound
    have taking := (Act.stillOpen (.switch d enabled key)).1.trans ready
    obtain ⟨first, lit⟩ := switch_lit sound ready agreed enabled key
    obtain ⟨valid, takes, index, last, flags⟩ := ih kept taking first
    refine ⟨valid, takes, index.trans (switch_index d enabled key), last, ?_⟩
    intro other
    rw [List.foldl_cons, flags, switch_index, lit]
    by_cases here : key = other
    · subst other
      by_cases there : (d.store.index[key]?).isSome <;> simp [there]
    · simp [here, Ne.symm here]

/-- After activation the wanted cells, and no others, are active and switched on. -/
theorem activate_tuned (balanced : Balanced d) (ready : d.commands.isOpen = true)
    (lit : Lit d.planner d.store d.commands.letters.toList held) : d.activate.Tuned held := by
  have steady := activate_steady balanced.sound
  obtain ⟨sound, taking, index, agreed, on⟩ := switchAll_lit balanced.sound ready lit.agreed true
    (d.planner.wanted \ d.planner.active).toList
  obtain ⟨_, _, _, agreed, off⟩ := switchAll_lit sound taking agreed false
    (d.planner.active \ d.planner.wanted).toList
  have wanted : d.activate.planner.wanted = d.planner.wanted := by
    rw [Planner.wanted, steady.trackers, Planner.wanted]
  refine ⟨steady.balanced balanced, ⟨?_, ?_, agreed⟩, ?_⟩
  · intro key
    change d.planner.wanted.contains key = _
    refine Eq.trans ?_ (off key).symm
    rw [index, on]
    simp only [Std.ExtTreeSet.mem_toList, ← Std.ExtTreeSet.contains_iff_mem, Std.ExtTreeSet.contains_diff]
    have flag := lit.flags key
    by_cases indexed : (d.store.index[key]?).isSome
    · simp only [indexed, ← flag]
      cases d.planner.wanted.contains key <;> cases d.planner.active.contains key <;> rfl
    · have absent := Option.not_isSome_iff_eq_none.mp indexed
      have unwanted := unreferenced_unwanted balanced lit.fits (refsOf_absent absent)
      rw [unwanted, isLit_absent absent, if_neg fun both => indexed both.2, if_neg fun both => indexed both.2]
  · intro body tracker found
    rw [steady.trackers] at found
    exact lit.fits body tracker found
  · intro key
    rw [wanted]
    rfl

/-- A cell that is removed was neither wanted nor switched on. -/
theorem evict_tuned (tuned : d.Tuned held) (ready : d.commands.isOpen = true) {store : Store}
    (found : d.store.indexOf key = some index) (retired : d.store.tryRetire index = (store, true)) :
    ({ d with store, planner := forget d.planner key }.evict key).Tuned held := by
  have sound := tuned.balanced.sound
  have steady := evict_steady sound found retired
  obtain ⟨s', slot, report, departed, kept, unreferenced, _, step, _, _⟩ := evict_cases sound found retired
  have free : d.store.refsOf key = 0 := by
    rw [← departed.owner, refsOf_live sound departed.found, unreferenced]
  have unwanted := unreferenced_unwanted tuned.balanced tuned.lit.fits free
  have off : slot.active = false := by
    rw [← isLit_live sound departed.found, departed.owner, ← tuned.lit.flags, tuned.wanted, unwanted]
  have balanced := steady.balanced tuned.balanced
  rw [step] at balanced ⊢
  refine ⟨balanced, ⟨?_, tuned.lit.fits, ?_⟩, ?_⟩
  · intro other
    change (d.planner.active.erase key).contains other = s'.isLit other
    rw [Table.contains_erase, departed.isLit sound, tuned.lit.flags]
    by_cases here : key = other <;> simp [here]
  · have agreed := tuned.lit.agreed.departed departed off
    cases slot.shape with
    | none => exact agreed
    | some shape =>
      dsimp only [Option.elim_some]
      rw [Mailbox.post_letters ready]
      exact agreed.queued fun _ _ => rfl
  · intro other
    change (d.planner.active.erase key).contains other = d.planner.wanted.contains other
    rw [Table.contains_erase, tuned.wanted]
    by_cases here : key = other
    · subst other
      simp [unwanted]
    · simp [here]

theorem Framed.tuned (framed : Framed d d') (tuned : d.Tuned held) : d'.Tuned held := by
  have sound := tuned.balanced.sound
  have steady := framed.steady sound
  have alike := alike_outline framed.outline
  have wanted : d'.planner.wanted = d.planner.wanted := by
    rw [Planner.wanted, framed.trackers, Planner.wanted]
  refine ⟨steady.balanced tuned.balanced, ⟨?_, ?_, ?_⟩, ?_⟩
  · intro key
    rw [framed.active, tuned.lit.flags, alike.isLit sound steady.sound]
  · rw [framed.trackers]
    exact tuned.lit.fits
  · rw [framed.commands]
    exact tuned.lit.agreed.alike alike
  · intro key
    rw [framed.active, wanted]
    exact tuned.wanted key

theorem sweepOne_tuned (tuned : d.Tuned held) (ready : d.commands.isOpen = true) (key : Key) :
    (d.sweepOne key).Tuned held := by
  rcases sweepOne_cases d key with noted | ⟨index, store, found, _, retired, step⟩
  · exact noted.framed.tuned tuned
  · rw [step]
    exact evict_tuned tuned ready found retired

theorem sweep_tuned (tuned : d.Tuned held) (ready : d.commands.isOpen = true) : d.sweep.Tuned held := by
  unfold sweep
  generalize due d.planner.leaving d.planner.passes = keys
  induction keys generalizing d with
  | nil => exact tuned
  | cons key keys ih => exact ih (sweepOne_tuned tuned ready key) ((sweepOne_acts d key).stillOpen.1.trans ready)

/-- A pass that succeeds leaves the planner, the store and the queue of commands in tune. -/
theorem pass_tuned (tuned : d.Tuned held) (ready : d.commands.isOpen = true) {queued : List Event}
    {probe : BodyId → Option Pose} (passed : d.pass queued probe = .ok d') : d'.Tuned held := by
  obtain ⟨applied, followed, applying, following, rfl⟩ := pass_cases passed
  have opened : Balanced (d.opened (d.planner.inbox ++ queued).length) := ⟨tuned.balanced.sound, tuned.balanced.even⟩
  have counted : Counted (d.opened (d.planner.inbox ++ queued).length) followed := by
    have first := applyEvents_counted (d.opened (d.planner.inbox ++ queued).length) (d.planner.inbox ++ queued)
    have second := followAll_counted applied probe
    rw [applying] at first
    rw [following] at second
    exact first.trans second
  have evened := (applyEvents_evened opened applying).1
  have balanced := (followAll_evened evened.balanced following).1.balanced
  obtain ⟨_, lit⟩ := counted.lit opened.sound ⟨tuned.lit.flags, tuned.lit.fits, tuned.lit.agreed⟩
  have taking : followed.commands.isOpen = true := (congrArg Mailbox.isOpen counted.quiet.1).trans ready
  have activated := activate_tuned balanced taking lit
  have swept := sweep_tuned activated ((activate_acts followed).stillOpen.1.trans taking)
  have claimed : followed.settle.Tuned held := Framed.tuned (claims_clerical followed.activate.sweep).framed swept
  exact (closed_noted followed.settle).framed.tuned claimed

end Desk

end TerrainStream.Residency
