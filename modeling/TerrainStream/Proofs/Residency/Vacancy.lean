import TerrainStream.Proofs.Residency.Departure

/-! What the history of a cell's references says of its removal. A history is told in moments: in each of them one
event is applied, or one body is followed, and a cell takes or drops one reference at most. Once the last one is
dropped the cell leaves after the grace period, or as soon as the world lets go of it. -/

namespace TerrainStream.Residency

open Cell Physics Store Collision Build

/-! ### Histories -/

/-- One event applied, or one body followed, in the course of a pass. -/
structure Moment where
  pass : Nat
  /-- The event, or none if a body is followed. -/
  event : Option Event
  before : Store
  after : Store

namespace Moment

/-- The last reference on a cell is dropped. -/
def Vacates (m : Moment) (key : Key) : Prop := m.before.refsOf key = 1 ∧ m.after.refsOf key = 0

/-- Nobody references a cell, neither before nor after. -/
def Quiet (m : Moment) (key : Key) : Prop := m.before.refsOf key = 0 ∧ m.after.refsOf key = 0

/-- The world lets go of a cell. -/
def Unloads (m : Moment) (key : Key) : Prop := m.event = some (.cellUnloaded key)

instance (m : Moment) (key : Key) : Decidable (m.Unloads key) :=
  decidable_of_iff (m.event.any fun | .cellUnloaded other => other = key | _ => false) <| by
    rw [Unloads]
    rcases m.event with _ | e
    · simp
    · cases e <;> simp

end Moment

/-- Nobody has referenced a cell since the moment in which its last reference was dropped. -/
structure Vacant (history : List Moment) (key : Key) (edge : Moment) (since : List Moment) : Prop where
  told : (edge :: since) <:+ history
  vacates : edge.Vacates key
  quiet : ∀ m ∈ since, m.Quiet key

/-- The references on a cell at the end of a history that starts without any. -/
def refsAfter (history : List Moment) (key : Key) : Nat := history.getLast?.elim 0 (·.after.refsOf key)

/-- A history tells of every change of a cell's references, pass after pass. -/
structure Told (history : List Moment) (key : Key) (now refs : Nat) : Prop where
  current : refs = refsAfter history key
  linked : ∀ past m, (past ++ [m]) <+: history → m.before.refsOf key = refsAfter past key
  ordered : history.Pairwise fun m m' => m.pass ≤ m'.pass
  begun : ∀ m ∈ history, m.pass ≤ now

variable {history since since' later : List Moment} {key : Key} {edge edge' m : Moment} {now refs : Nat}

theorem Told.tick (told : Told history key now refs) : Told history key (now + 1) refs :=
  ⟨told.current, told.linked, told.ordered, fun m listed => Nat.le_succ_of_le (told.begun m listed)⟩

theorem Told.append (told : Told history key now refs) (pass : m.pass = now) (before : m.before.refsOf key = refs) :
    Told (history ++ [m]) key now (m.after.refsOf key) := by
  refine ⟨by simp [refsAfter], fun past other starts => ?_, ?_, fun other listed => ?_⟩
  · rcases List.prefix_concat_iff.mp starts with whole | part
    · obtain ⟨rfl, rfl⟩ := List.append_singleton_inj.mp whole
      rw [before, told.current]
    · exact told.linked past other part
  · rw [List.pairwise_append]
    refine ⟨told.ordered, List.pairwise_singleton .., fun other listed last same => ?_⟩
    rw [List.mem_singleton.mp same, pass]
    exact told.begun other listed
  · rcases List.mem_append.mp listed with earlier | same
    · exact told.begun other earlier
    · rw [List.mem_singleton.mp same, pass]

/-- While a cell is vacant nobody references it. -/
theorem Vacant.unreferenced (vacant : Vacant history key edge since) : refsAfter history key = 0 := by
  obtain ⟨past, rfl⟩ := vacant.told
  rw [refsAfter, List.getLast?_append_of_ne_nil _ (List.cons_ne_nil _ _)]
  rcases List.eq_nil_or_concat' since with rfl | ⟨rest, last, rfl⟩
  · exact vacant.vacates.2
  · rw [← List.cons_append, List.getLast?_concat]
    exact (vacant.quiet last (List.mem_append_right _ List.mem_cons_self)).2

theorem Vacant.append (vacant : Vacant history key edge since) (quiet : m.Quiet key) :
    Vacant (history ++ [m]) key edge (since ++ [m]) := by
  obtain ⟨past, told⟩ := vacant.told
  refine ⟨⟨past, by rw [← told, List.append_assoc, List.cons_append]⟩, vacant.vacates, fun other listed => ?_⟩
  rcases List.mem_append.mp listed with earlier | same
  · exact vacant.quiet other earlier
  · rwa [List.mem_singleton.mp same]

/-- A cell is vacant since one moment only. -/
theorem Vacant.unique (one : Vacant history key edge since) (other : Vacant history key edge' since') :
    edge = edge' ∧ since = since' := by
  -- If one stretch lay properly inside the other, its edge would be quiet there.
  have inside {edge edge' : Moment} {since since' : List Moment} (one : Vacant history key edge since)
      (other : Vacant history key edge' since') (part : (edge :: since) <:+ (edge' :: since')) :
      edge = edge' ∧ since = since' := by
    rcases List.suffix_cons_iff.mp part with same | later
    · exact List.cons.inj same
    · have quiet := other.quiet edge (later.subset List.mem_cons_self)
      have held := one.vacates.1
      rw [quiet.1] at held
      cases held
  rcases List.suffix_or_suffix_of_suffix one.told other.told with part | part
  · exact inside one other part
  · obtain ⟨rfl, rfl⟩ := inside other one part
    exact ⟨rfl, rfl⟩

/-- A cell that nobody references before the last moment is vacant since an earlier one. -/
theorem Vacant.before (vacant : Vacant (history ++ [m]) key edge since) (free : m.before.refsOf key = 0) :
    ∃ earlier, Vacant history key edge earlier := by
  obtain ⟨told, vacates, quiet⟩ := vacant
  rcases List.suffix_concat_iff.mp told with none | ⟨part, whole, inside⟩
  · cases none
  · cases part with
    | nil =>
      obtain ⟨rfl, rfl⟩ := List.cons.inj whole
      cases free.symm.trans vacates.1
    | cons first earlier =>
      obtain ⟨rfl, rfl⟩ := List.cons.inj whole
      exact ⟨earlier, inside, vacates, fun other listed => quiet other (List.mem_append_left _ listed)⟩

/-- A reference after some moment puts the edge later. -/
theorem Vacant.after (vacant : Vacant history key edge since) (told : (m :: later) <:+ history)
    (held : 0 < m.after.refsOf key) : (edge :: since) <:+ later := by
  have loud (listed : m = edge ∨ m ∈ since) : False := by
    rcases listed with rfl | quiet
    · exact Nat.ne_of_gt held vacant.vacates.2
    · exact Nat.ne_of_gt held (vacant.quiet m quiet).2
  rcases List.suffix_or_suffix_of_suffix told vacant.told with part | part
  · rcases List.suffix_cons_iff.mp part with same | inside
    · exact (loud (.inl (List.cons.inj same).1)).elim
    · exact (loud (.inr (inside.subset List.mem_cons_self))).elim
  · rcases List.suffix_cons_iff.mp part with same | inside
    · exact (loud (.inl (List.cons.inj same).1.symm)).elim
    · exact inside

/-! ### What a history says of a footing -/

/-- In one moment no cell goes away. -/
theorem Footing.Turn.keeps {event : Option Event} {f f' : Footing} (turn : Footing.Turn key event f f')
    (here : f.here = true) : f'.here = true := by
  cases turn with
  | took => rfl
  | same | dropped | unloaded | configured => exact here

/-- What a history says of a cell's footing under a constant grace period. A referenced cell has no date to leave. An
unreferenced one has the date that it was given when its last reference was dropped, or one that has come since the
world let go of it. And a cell that is gone has departed since its last reference was dropped. -/
structure Reckoned (grace : Nat) (key : Key) (departed : Moment → Prop) (history : List Moment) (f : Footing) :
    Prop where
  told : Told history key f.now f.refs
  pace : f.grace = grace
  held : 0 < f.refs → f.leaving = none
  gone : f.here = false → f.refs = 0 ∧ ∀ edge since, Vacant history key edge since → departed edge
  vacant : f.here = true → f.refs = 0 → ∃ edge since due, Vacant history key edge since ∧ f.leaving = some due ∧
    (due = passAfter edge.pass grace ∨ (due ≤ f.now ∧ ∃ m ∈ since, m.Unloads key))

variable {grace : Nat} {departed departed' : Moment → Prop} {f f' : Footing}

theorem Reckoned.tick (reckoned : Reckoned grace key departed history f) :
    Reckoned grace key departed history { f with now := f.now + 1 } := by
  refine ⟨reckoned.told.tick, reckoned.pace, reckoned.held, reckoned.gone, fun here free => ?_⟩
  obtain ⟨edge, since, due, vacant, date, reason⟩ := reckoned.vacant here free
  exact ⟨edge, since, due, vacant, date, reason.imp_right fun ⟨past, unloads⟩ => ⟨Nat.le_succ_of_le past, unloads⟩⟩

theorem Reckoned.imp (reckoned : Reckoned grace key departed history f)
    (kept : ∀ edge, departed edge → departed' edge) : Reckoned grace key departed' history f := by
  refine ⟨reckoned.told, reckoned.pace, reckoned.held, fun absent => ?_, reckoned.vacant⟩
  obtain ⟨free, left⟩ := reckoned.gone absent
  exact ⟨free, fun edge since vacant => kept edge (left edge since vacant)⟩

/-- A cell that is gone stays gone unless somebody takes it. -/
private theorem Reckoned.stays (reckoned : Reckoned grace key departed history f)
    (before : m.before.refsOf key = f.refs) (absent : f.here = false) :
    f.refs = 0 ∧ ∀ edge since, Vacant (history ++ [m]) key edge since → departed edge := by
  obtain ⟨free, left⟩ := reckoned.gone absent
  refine ⟨free, fun edge since vacant => ?_⟩
  obtain ⟨earlier, vacant⟩ := vacant.before (before.trans free)
  exact left edge earlier vacant

/-- A date stays what it is through a moment in which nobody references the cell. -/
private theorem Reckoned.waits (reckoned : Reckoned grace key departed history f) (here : f.here = true)
    (free : f.refs = 0) (quiet : m.Quiet key) :
    ∃ edge since due, Vacant (history ++ [m]) key edge since ∧ f.leaving = some due ∧
      (due = passAfter edge.pass grace ∨ (due ≤ f.now ∧ ∃ m ∈ since, m.Unloads key)) := by
  obtain ⟨edge, since, due, vacant, date, reason⟩ := reckoned.vacant here free
  exact ⟨edge, since ++ [m], due, vacant.append quiet, date, reason.imp_right fun ⟨past, other, listed, unloads⟩ =>
    ⟨past, other, List.mem_append_left _ listed, unloads⟩⟩

theorem Reckoned.turn (reckoned : Reckoned grace key departed history f) (turn : Footing.Turn key m.event f f')
    (paced : ∀ pacing margins, m.event = some (.configured pacing margins) → pacing.removalGrace = grace)
    (pass : m.pass = f.now) (before : m.before.refsOf key = f.refs) (after : m.after.refsOf key = f'.refs) :
    Reckoned grace key departed (history ++ [m]) f' := by
  have told := reckoned.told.append pass before
  rw [after] at told
  generalize event : m.event = happening at turn
  cases turn with
  | same => exact ⟨told, reckoned.pace, reckoned.held, reckoned.stays before, fun here free =>
      reckoned.waits here free ⟨before.trans free, after.trans free⟩⟩
  | took =>
    refine ⟨told, reckoned.pace, fun _ => ?_, (nomatch ·), fun _ free => nomatch free⟩
    split
    · rfl
    · rename_i held
      exact reckoned.held (Nat.pos_of_ne_zero held)
  | dropped _ here =>
    refine ⟨told, reckoned.pace, fun held => ?_, fun absent => (nomatch here.symm.trans absent), fun _ free => ?_⟩
    · have held : 0 < f.refs - 1 := held
      rw [if_neg (by omega)]
      exact reckoned.held (by omega)
    · have free : f.refs - 1 = 0 := free
      rw [if_pos free]
      -- Dropping a reference that nobody holds is no edge: the date stands.
      rcases Nat.eq_zero_or_pos f.refs with none | some
      · obtain ⟨edge, since, due, vacant, date, reason⟩ :=
          reckoned.waits here none (m := m) ⟨before.trans none, after.trans free⟩
        exact ⟨edge, since, due, vacant, by rw [date, Option.getD_some], reason⟩
      · refine ⟨m, [], _, ⟨⟨history, rfl⟩, ⟨before.trans (by omega), after.trans free⟩, fun _ none => by cases none⟩,
          by rw [reckoned.held some, Option.getD_none], .inl ?_⟩
        rw [pass, reckoned.pace]
  | unloaded here free =>
    refine ⟨told, reckoned.pace, fun held => absurd free (Nat.ne_of_gt held),
      fun absent => (nomatch here.symm.trans absent), fun _ _ => ?_⟩
    obtain ⟨edge, since, _, vacant, _⟩ := reckoned.vacant here free
    exact ⟨edge, since ++ [m], f.now, vacant.append ⟨before.trans free, after.trans free⟩, rfl,
      .inr ⟨Nat.le_refl _, m, List.mem_append_right _ List.mem_cons_self, event⟩⟩
  | configured pacing margins => exact ⟨told, paced pacing margins event, reckoned.held,
      reckoned.stays before, fun here free => reckoned.waits here free ⟨before.trans free, after.trans free⟩⟩

/-! ### Settling -/

namespace Standing

variable {s s' : Standing}

/-- A cell that settling removes is unreferenced, and its date has come. -/
theorem settled_removed (dispatched : Dispatched s.settled s') (here : s.slot.isSome = true)
    (removed : s'.slot.isSome = false) : s.refs = 0 ∧ ∃ due, s.leaving = some due ∧ due ≤ s.now := by
  have same := congrArg Footing.here ((dispatched_footing dispatched).trans (settled_footing s))
  have gone : s.swept.slot.isSome = false := same.symm.trans removed
  unfold swept expire at gone
  split at gone
  · rename_i past
    obtain ⟨due, date, past⟩ := Option.any_eq_true _ _ |>.mp past
    split at gone
    · rename_i absent
      simp [absent] at here
    · rename_i slot there
      split at gone
      · rw [here] at gone
        cases gone
      · rename_i free
        exact ⟨by simpa [refs, there] using free, due, date, of_decide_eq_true past⟩
  · rw [here] at gone
    cases gone

end Standing

/-- Settling takes a date away only from a cell that it removes. -/
theorem Reckoned.settled {s s' : Standing} (reckoned : Reckoned grace key departed history s.footing)
    (dispatched : Dispatched s.settled s') (kept : ∀ edge, departed edge → departed' edge)
    (removed : s.slot.isSome = true → s'.slot.isSome = false → ∀ edge ∈ history, edge.pass ≤ s.now → departed' edge) :
    Reckoned grace key departed' history s'.footing := by
  have gone (absent : s'.footing.here = false) :
      s.refs = 0 ∧ ∀ edge since, Vacant history key edge since → departed' edge := by
    by_cases here : s.slot.isSome = true
    · refine ⟨(Standing.settled_removed dispatched here absent).1, fun edge since vacant => ?_⟩
      have listed : edge ∈ history := vacant.told.subset List.mem_cons_self
      exact removed here absent edge listed (reckoned.told.begun edge listed)
    · obtain ⟨free, left⟩ := reckoned.gone (Bool.eq_false_iff.mpr here)
      exact ⟨free, fun edge since vacant => kept edge (left edge since vacant)⟩
  rw [Standing.dispatched_footing dispatched, Standing.settled_footing] at gone ⊢
  rcases s.swept_cases with same | ⟨same, held⟩
  · rw [same] at gone ⊢
    exact ⟨reckoned.told, reckoned.pace, reckoned.held, gone, reckoned.vacant⟩
  · rw [same] at gone ⊢
    exact ⟨reckoned.told, reckoned.pace, fun _ => rfl, gone, fun here free => absurd free (Nat.ne_of_gt (held here))⟩

section Decided

variable {s s' : Standing} (reckoned : Reckoned grace key departed history s.footing)
  (dispatched : Dispatched s.settled s')
include reckoned dispatched

/-- A cell is removed only after its grace period, unless the world has let go of it. -/
theorem Reckoned.removed (here : s.slot.isSome = true) (removed : s'.slot.isSome = false) :
    ∃ edge since, Vacant history key edge since ∧
      (passAfter edge.pass grace ≤ s.now ∨ ∃ m ∈ since, m.Unloads key) := by
  obtain ⟨free, due, date, past⟩ := Standing.settled_removed dispatched here removed
  obtain ⟨edge, since, due', vacant, date', reason⟩ := reckoned.vacant here free
  obtain rfl : due = due' := Option.some.inj (date.symm.trans date')
  refine ⟨edge, since, vacant, reason.imp (fun ends => ?_) And.right⟩
  rwa [← ends]

/-- Every reference keeps a cell for a whole grace period whose end can be dated, unless the world lets go of it
afterwards. -/
theorem Reckoned.renewed (here : s.slot.isSome = true) (removed : s'.slot.isSome = false)
    (short : s.now + grace < UInt64.size) (told : (m :: later) <:+ history) (held : 0 < m.after.refsOf key) :
    m.pass + grace ≤ s.now ∨ ∃ u ∈ later, u.Unloads key := by
  obtain ⟨edge, since, vacant, reason⟩ := reckoned.removed dispatched here removed
  have after : (edge :: since) <:+ later := vacant.after told held
  have ordered : m.pass ≤ edge.pass := by
    have ordered := reckoned.told.ordered.sublist told.sublist
    exact (List.pairwise_cons.mp ordered).1 edge (after.subset List.mem_cons_self)
  refine reason.imp (fun ends => ?_) fun ⟨u, listed, unloads⟩ => ⟨u, after.subset (List.mem_cons_of_mem _ listed), unloads⟩
  have begun : edge.pass ≤ s.now := reckoned.told.begun edge (vacant.told.subset List.mem_cons_self)
  calc m.pass + grace
      ≤ edge.pass + grace := Nat.add_le_add_right ordered grace
    _ = passAfter edge.pass grace := (passAfter_eq (Nat.lt_of_le_of_lt (Nat.add_le_add_right begun grace) short)).symm
    _ ≤ s.now := ends

end Decided

/-- A cell that is there has a date for its removal if and only if nobody references it. -/
theorem Reckoned.dated (reckoned : Reckoned grace key departed history f) (here : f.here = true) :
    f.leaving.isSome = true ↔ f.refs = 0 := by
  constructor
  · intro dated
    refine Nat.eq_zero_of_not_pos fun held => ?_
    rw [reckoned.held held] at dated
    cases dated
  · intro free
    obtain ⟨_, _, due, _, date, _⟩ := reckoned.vacant here free
    rw [date]
    rfl

/-! ### Moments of a pass -/

namespace Desk

variable {d d' : Desk} {jobs : List Job} {keys : List Key}

/-- References taken on different cells are taken on each of them. -/
theorem acquireAll_standing (sound : d.store.Sound) (once : keys.Nodup) (acquired : d.acquireAll keys = .ok d')
    (key : Key) : (key ∉ keys → d'.standing key = d.standing key) ∧
      (key ∈ keys → ∃ version, d'.standing key = (d.standing key).take (Slot.newcomer key version)) := by
  induction keys generalizing d with
  | nil =>
    cases acquired
    exact ⟨fun _ => rfl, fun listed => nomatch listed⟩
  | cons k keys ih =>
    obtain ⟨next, first, acquired⟩ := foldlM_cons_ok.mp acquired
    obtain ⟨version, touches⟩ := acquire_touches sound first
    obtain ⟨outside, once⟩ := List.nodup_cons.mp once
    obtain ⟨still, taken⟩ := ih (acquire_stirs sound first).sound once acquired
    have first := touches key
    refine ⟨fun absent => ?_, fun listed => ?_⟩
    · obtain ⟨elsewhere, absent⟩ := not_or.mp (mt List.mem_cons.mpr absent)
      rw [still absent, first, if_neg (Ne.symm elsewhere)]
    · rcases List.mem_cons.mp listed with rfl | later
      · exact ⟨version, by rw [still outside, first, if_pos rfl]⟩
      · have elsewhere : k ≠ key := fun same => outside (same ▸ later)
        rw [if_neg elsewhere] at first
        rw [← first]
        exact taken later

/-- References dropped on different cells are dropped on each of them. -/
theorem releaseAll_standing (sound : d.store.Sound) (once : keys.Nodup) (key : Key) :
    (d.releaseAll keys).standing key = if key ∈ keys then (d.standing key).drop else d.standing key := by
  induction keys generalizing d with
  | nil => simp [releaseAll]
  | cons k keys ih =>
    obtain ⟨outside, once⟩ := List.nodup_cons.mp once
    have rest := ih (d := d.release k) (release_stirs sound k).sound once
    have step : (d.releaseAll (k :: keys)) = (d.release k).releaseAll keys := rfl
    rw [step, rest, release_touches sound k key]
    by_cases here : k = key
    · subst k
      simp [outside]
    · have elsewhere : key ≠ k := Ne.symm here
      simp [here, elsewhere]

theorem follow_turn {update : BodyId × Option Cells} (sound : d.store.Sound) (followed : d.follow update = .ok d')
    (key : Key) : Footing.Turn key none (d.standing key).footing (d'.standing key).footing := by
  unfold follow at followed
  split at followed
  · rename_i cells tracker _ _
    dsimp only at followed
    generalize enrolled : ({ d with planner := { d.planner with
      trackers := d.planner.trackers.insert update.1 (tracker.adopt cells).1 } } : Desk) = next at followed
    have still : next.standing key = d.standing key := by rw [← enrolled]; rfl
    have sound : next.store.Sound := by rw [← enrolled]; exact sound
    obtain ⟨middle, acquired, rfl⟩ := map_ok.mp followed
    obtain ⟨untaken, taken⟩ := acquireAll_standing sound (Table.nodup_listed _) acquired key
    have once : (tracker.adopt cells).2.released.Nodup := Table.nodup_listed _
    rw [releaseAll_standing (acquireAll_stirs sound acquired).sound once, ← still]
    -- What a body comes to need and what it leaves are different cells, so a cell turns once.
    by_cases gained : key ∈ (tracker.adopt cells).2.acquired
    · obtain ⟨version, taken⟩ := taken gained
      have kept : key ∉ (tracker.adopt cells).2.released := by
        simp only [Tracker.adopt, Std.ExtTreeSet.mem_toList, Std.ExtTreeSet.mem_diff_iff] at gained ⊢
        exact fun lost => lost.2 gained.1
      rw [if_neg kept, taken]
      exact Standing.take_turn _ _ _ _
    · rw [untaken gained]
      split
      · exact Standing.drop_turn _ _ _
      · exact .same _ _
  · cases followed
    exact .same _ _

theorem applyEvent_turn {e : Event} (sound : d.store.Sound) (filed : ∀ k, d.Filed k) (applied : d.applyEvent e = .ok d')
    (key : Key) : Footing.Turn key (some e) (d.standing key).footing (d'.standing key).footing := by
  have still {d' : Desk} (same : (d'.standing key).footing = (d.standing key).footing) :
      Footing.Turn key (some e) (d.standing key).footing (d'.standing key).footing := by
    rw [same]
    exact .same _ _
  cases e with
  | bodyAdded | shutdown =>
    cases applied
    exact still rfl
  | bodyRemoved body =>
    simp only [applyEvent] at applied
    split at applied
    · cases applied
      exact still rfl
    · rename_i tracker _
      cases applied
      have once : tracker.held.Nodup := Table.nodup_listed _
      rw [releaseAll_standing
        (d := { d with planner := { d.planner with trackers := d.planner.trackers.erase body } }) sound once]
      split
      · exact Standing.drop_turn _ _ _
      · exact still rfl
  | voxelEdited place =>
    cases applied
    refine still ?_
    rw [invalidateAll_standing sound]
    split
    · exact Standing.invalidate_footing _
    · rfl
  | cellUnloaded k =>
    cases applied
    rw [unload_touches sound (filed k) key]
    split
    · rename_i here
      rw [here]
      exact Standing.unload_turn _ _
    · exact still rfl
  | requested k =>
    simp only [applyEvent] at applied
    split at applied
    · cases applied
      exact still rfl
    · obtain ⟨version, touches⟩ := acquire_touches
        (d := { d with planner := { d.planner with holds := d.planner.holds.insert k } }) sound applied
      rw [touches key]
      split
      · rename_i here
        rw [here]
        exact Standing.take_turn _ _ _ _
      · exact still rfl
  | released k =>
    simp only [applyEvent] at applied
    split at applied
    · cases applied
      rw [release_touches
        (d := { d with planner := { d.planner with holds := d.planner.holds.erase k } }) sound k key]
      split
      · exact Standing.drop_turn _ _ _
      · exact still rfl
    · cases applied
      exact still rfl
  | prioritized k priority =>
    cases applied
    refine still ?_
    rw [prioritize_touches sound k priority key]
    split
    · exact Standing.renew_footing _
    · rfl
  | snapshotUnavailable k =>
    cases applied
    refine still ?_
    rw [touches_retry k _ key]
    split <;> rfl
  | claimAbandoned k =>
    cases applied
    refine still ?_
    rw [touches_remind k key]
    split <;> rfl
  | configured pacing margins =>
    cases applied
    exact .configured pacing margins _

/-- The moments in which a desk goes through a list of steps, as far as they succeed. -/
def moments {α : Type} (step : Desk → α → Attempt) (event : α → Option Event) (d : Desk) : List α → List Moment
  | [] => []
  | x :: xs =>
    match step d x with
    | .error _ => []
    | .ok next => ⟨d.planner.passes, event x, d.store, next.store⟩ :: next.moments step event xs

/-- The bodies that a pass follows, with the cells that they need. -/
def updates (d : Desk) (probe : BodyId → Option Pose) : List (BodyId × Option Cells) :=
  d.planner.trackers.toList.map fun (body, tracker) =>
    (body, tracker.needs probe d.planner.grid d.planner.margins)

theorem followAll_eq (d : Desk) (probe : BodyId → Option Pose) :
    d.followAll probe = (d.updates probe).foldlM follow d := rfl

/-- The moments of a pass from its opening until it settles: its events and then its bodies. -/
def telling (d : Desk) (batch : List Event) (probe : BodyId → Option Pose) : List Moment :=
  d.moments applyEvent some batch ++
    match d.applyEvents batch with
    | .error _ => []
    | .ok applied => applied.moments follow (fun _ => none) (applied.updates probe)

private theorem moments_reckon {α : Type} (step : Desk → α → Attempt) (event : α → Option Event) {xs : List α}
    {history : List Moment}
    (turns : ∀ d x d', x ∈ xs → d.Orderly jobs → step d x = .ok d' →
      d'.Orderly jobs ∧ Footing.Turn key (event x) (d.standing key).footing (d'.standing key).footing)
    (paced : ∀ x ∈ xs, ∀ pacing margins, event x = some (.configured pacing margins) → pacing.removalGrace = grace)
    (orderly : d.Orderly jobs) (reckoned : Reckoned grace key departed history (d.standing key).footing)
    (done : xs.foldlM step d = .ok d') :
    d'.Orderly jobs ∧ Reckoned grace key departed (history ++ d.moments step event xs) (d'.standing key).footing ∧
      ((d.standing key).footing.here = true → (d'.standing key).footing.here = true) := by
  induction xs generalizing d history with
  | nil =>
    cases done
    exact ⟨orderly, by rwa [moments, List.append_nil], id⟩
  | cons x xs ih =>
    obtain ⟨next, first, done⟩ := foldlM_cons_ok.mp done
    obtain ⟨kept, turn⟩ := turns d x next List.mem_cons_self orderly first
    have refs (d : Desk) : d.store.refsOf key = (d.standing key).footing.refs := (standing_refs d key).symm
    have counted := reckoned.turn (m := ⟨d.planner.passes, event x, d.store, next.store⟩) turn
      (paced x List.mem_cons_self) rfl (refs d) (refs next)
    have rest := ih (fun d x d' listed => turns d x d' (List.mem_cons_of_mem _ listed))
      (fun x listed => paced x (List.mem_cons_of_mem _ listed)) kept counted done
    rw [List.append_assoc, List.singleton_append] at rest
    simp only [moments, first]
    exact ⟨rest.1, rest.2.1, rest.2.2 ∘ turn.keeps⟩

/-- Up to the point where a pass settles, what its moments tell agrees with every cell's footing, and no cell goes
away. -/
theorem telling_reckons {batch : List Event} {probe : BodyId → Option Pose} {applied followed : Desk}
    (orderly : d.Orderly jobs) (paced : Paced grace batch)
    (reckoned : Reckoned grace key departed history (d.standing key).footing)
    (applying : d.applyEvents batch = .ok applied) (following : applied.followAll probe = .ok followed) :
    Reckoned grace key departed (history ++ d.telling batch probe) (followed.standing key).footing ∧
      ((d.standing key).footing.here = true → (followed.standing key).footing.here = true) := by
  obtain ⟨heard, told, first⟩ := moments_reckon applyEvent some
    (fun d e d' _ orderly applied => ⟨orderly.attempt (applyEvent_counted d e) applied,
      applyEvent_turn orderly.sound orderly.filed applied key⟩)
    (fun e listed pacing margins same => paced pacing margins (Option.some.inj same ▸ listed)) orderly reckoned applying
  rw [followAll_eq] at following
  obtain ⟨_, retold, second⟩ := moments_reckon follow (fun _ => none)
    (fun d update d' listed orderly followed => ⟨orderly.attempt (follow_counted d update fun cells wanted => by
        obtain ⟨⟨body, tracker⟩, _, rfl⟩ := List.mem_map.mp listed
        obtain ⟨pose, _, answer⟩ := Option.bind_eq_some_iff.mp wanted
        exact Cells.ofPose_fits answer) followed, follow_turn orderly.sound followed key⟩)
    (fun _ _ _ _ => nofun) heard told following
  simp only [telling, applying]
  rw [← List.append_assoc]
  exact ⟨retold, second ∘ first⟩

end Desk

end TerrainStream.Residency
