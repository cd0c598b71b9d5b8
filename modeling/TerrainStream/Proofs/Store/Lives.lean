import TerrainStream.Proofs.Store.Deeds

/-! The life of one claim, told from its slot's deeds alone: it is issued, may begin, and ends once, and
what comes after its end is refused for good. -/

namespace TerrainStream.Store

open Cell

/-- By the story so far, the claim was issued and has not ended. -/
def IsOut (claim : UInt32) (told : List Deed) : Prop := .issued claim ∈ told ∧ ∀ deed ∈ told, deed.ends = false

/-- By the story so far, the claim was issued and has ended. -/
def IsOver (claim : UInt32) (told : List Deed) : Prop := .issued claim ∈ told ∧ ∃ deed ∈ told, deed.ends = true

instance (claim : UInt32) (told : List Deed) : Decidable (IsOut claim told) := by unfold IsOut; infer_instance

/-- The story goes on with deeds that name the claim, and with a removal while the claim is out. -/
def tell (claim : UInt32) (told : List Deed) (deed : Deed) : List Deed :=
  if deed.claim? = some claim ∨ deed = .removed ∧ IsOut claim told then told ++ [deed] else told

/-- What befell one claim, of all the deeds on its slot. -/
def story (claim : UInt32) (deeds : List Deed) : List Deed := deeds.foldl (tell claim) []

/-- The stories that end. -/
def endings (claim : UInt32) : List (List Deed) :=
  [[.issued claim, .abandoned claim], [.issued claim, .removed],
    [.issued claim, .begun claim, .finished claim], [.issued claim, .begun claim, .abandoned claim],
    [.issued claim, .begun claim, .removed]]

/-- All the stories there are. -/
def lives (claim : UInt32) : List (List Deed) := [] :: [.issued claim] :: [.issued claim, .begun claim] :: endings claim

variable {claim now : UInt32} {out : Option Stage} {told : List Deed}

/-- A story leaves out no issue of its claim. -/
theorem count_story (claim : UInt32) (deeds : List Deed) :
    (story claim deeds).count (.issued claim) = deeds.count (.issued claim) := by
  have step (told : List Deed) (deed : Deed) :
      (tell claim told deed).count (.issued claim) = told.count (.issued claim) + [deed].count (.issued claim) := by
    unfold tell
    split
    · exact List.count_append
    · rename_i passed
      have other : deed ≠ .issued claim := fun same => passed (.inl (by rw [same]; rfl))
      simp [other]
  have fold (told : List Deed) : (deeds.foldl (tell claim) told).count (.issued claim) =
      told.count (.issued claim) + deeds.count (.issued claim) := by
    induction deeds generalizing told with
    | nil => rfl
    | cons deed rest ih =>
      rw [List.foldl_cons, ih, step, Nat.add_assoc, ← List.count_append]
      rfl
  simpa [story] using fold []

theorem not_out_of_ending (ending : told ∈ endings claim) : ¬ IsOut claim told := by
  simp only [endings, List.mem_cons, List.not_mem_nil, or_false] at ending
  rcases ending with rfl | rfl | rfl | rfl | rfl <;> simp [IsOut, Deed.ends]

theorem count_life (life : told ∈ lives claim) : told.count (.issued claim) ≤ 1 := by
  simp only [lives, endings, List.mem_cons, List.not_mem_nil, or_false] at life
  rcases life with rfl | rfl | rfl | rfl | rfl | rfl | rfl | rfl <;> simp

/-- A claim that has ended stays so. -/
theorem IsOver.tell (past : IsOver claim told) (deed : Deed) : IsOver claim (tell claim told deed) := by
  obtain ⟨issued, ending, listed, ends⟩ := past
  unfold Store.tell
  split
  · exact ⟨List.mem_append_left _ issued, ending, List.mem_append_left _ listed, ends⟩
  · exact ⟨issued, ending, listed, ends⟩

theorem IsOver.foldl (past : IsOver claim told) (deeds : List Deed) : IsOver claim (deeds.foldl (Store.tell claim) told) := by
  induction deeds generalizing told with
  | nil => exact past
  | cons deed rest ih => exact ih (past.tell deed)

/-- How far a claim's story has come, as its slot shows it. A claim that is not out is not confused with the
one that is, and a claim that was issued is no later than the slot's version. -/
inductive Stands (claim now : UInt32) (out : Option Stage) : List Deed → Prop
  | unissued (idle : claim = now → out = none) : Stands claim now out []
  | waiting (current : claim = now) (stage : out = some .scheduled) : Stands claim now out [.issued claim]
  | building (current : claim = now) (stage : out = some .generating) :
      Stands claim now out [.issued claim, .begun claim]
  | ended {told : List Deed} (idle : claim = now → out = none) (passed : claim ≤ now) (ending : told ∈ endings claim) :
      Stands claim now out told

theorem Stands.mem_lives (stands : Stands claim now out told) : told ∈ lives claim := by
  cases stands with
  | unissued => exact .head _
  | waiting => exact .tail _ (.head _)
  | building => exact .tail _ (.tail _ (.head _))
  | ended _ _ ending => exact .tail _ (.tail _ (.tail _ ending))

theorem Stands.flying (stands : Stands claim now out told) (unended : IsOut claim told) : out ≠ none := by
  cases stands with
  | unissued => cases unended.1
  | waiting _ stage => simp [stage]
  | building _ stage => simp [stage]
  | ended _ _ ending => exact absurd unended (not_out_of_ending ending)

theorem Stands.idle (stands : Stands claim now out told) (past : IsOver claim told) : claim = now → out = none := by
  obtain ⟨_, ending, listed, ends⟩ := past
  cases stands with
  | unissued idle => exact idle
  | ended idle => exact idle
  | waiting => simp_all [Deed.ends]
  | building =>
    rcases List.mem_pair.mp listed with rfl | rfl <;> cases ends

/-- A deed on another claim of the slot leaves the story where it is. -/
private theorem tell_other {deed : Deed} {version : UInt32} (names : deed.claim? = some version)
    (other : claim ≠ version) (told : List Deed) : tell claim told deed = told := by
  have passed : deed ≠ .removed := by
    rintro rfl
    cases names
  refine if_neg ?_
  simp [names, Ne.symm other, passed]

private theorem tell_own {deed : Deed} (names : deed.claim? = some claim) (told : List Deed) :
    tell claim told deed = told ++ [deed] := if_pos (.inl names)

/-- The story stands still when the claim is not out before the turn and not after it. -/
private theorem Stands.passed_over {next : UInt32} {left : Option Stage} (before : claim = now → out = none)
    (after : claim = next → left = none) (grows : now ≤ next) (stands : Stands claim now out told) :
    Stands claim next left told := by
  cases stands with
  | unissued => exact .unissued after
  | waiting current stage =>
    rw [before current] at stage
    cases stage
  | building current stage =>
    rw [before current] at stage
    cases stage
  | ended _ passed ending => exact .ended after (UInt32.le_trans passed grows) ending

/-- A new claim is told of once: its version was not reached before. -/
private theorem Stands.issued (rises : now < now + 1) (stands : Stands claim now none told) :
    Stands claim (now + 1) (some .scheduled) (tell claim told (.issued (now + 1))) := by
  by_cases own : claim = now + 1
  · subst own
    have distinct : now + 1 ≠ now := (UInt32.ne_of_lt rises).symm
    rw [tell_own rfl]
    cases stands with
    | unissued => exact .waiting rfl rfl
    | waiting current => exact absurd current distinct
    | building current => exact absurd current distinct
    | ended _ passed => exact absurd passed (UInt32.not_le.mpr rises)
  · rw [tell_other rfl own]
    exact stands.passed_over (fun _ => rfl) (fun current => absurd current own) (UInt32.le_of_lt rises)

private theorem Stands.begun (stands : Stands claim now (some .scheduled) told) :
    Stands claim now (some .generating) (tell claim told (.begun now)) := by
  by_cases own : claim = now
  · subst own
    rw [tell_own rfl]
    cases stands with
    | unissued idle => cases idle rfl
    | waiting => exact .building rfl rfl
    | building _ stage => cases stage
    | ended idle => cases idle rfl
  · rw [tell_other rfl own]
    exact stands.passed_over (fun current => absurd current own) (fun current => absurd current own) (UInt32.le_refl _)

private theorem Stands.finished (stands : Stands claim now (some .generating) told) :
    Stands claim now none (tell claim told (.finished now)) := by
  by_cases own : claim = now
  · subst own
    rw [tell_own rfl]
    cases stands with
    | unissued idle => cases idle rfl
    | waiting _ stage => cases stage
    | building => exact .ended (fun _ => rfl) (UInt32.le_refl _) (by simp [endings])
    | ended idle => cases idle rfl
  · rw [tell_other rfl own]
    exact stands.passed_over (fun current => absurd current own) (fun _ => rfl) (UInt32.le_refl _)

private theorem Stands.abandoned {stage : Stage} (stands : Stands claim now (some stage) told) :
    Stands claim now none (tell claim told (.abandoned now)) := by
  by_cases own : claim = now
  · subst own
    rw [tell_own rfl]
    cases stands with
    | unissued idle => cases idle rfl
    | waiting => exact .ended (fun _ => rfl) (UInt32.le_refl _) (by simp [endings])
    | building => exact .ended (fun _ => rfl) (UInt32.le_refl _) (by simp [endings])
    | ended idle => cases idle rfl
  · rw [tell_other rfl own]
    exact stands.passed_over (fun current => absurd current own) (fun _ => rfl) (UInt32.le_refl _)

/-- A removal ends the claim that is out, and passes over every other one. -/
private theorem Stands.removed (rises : now < now + 1) (stands : Stands claim now out told) :
    Stands claim (now + 1) none (tell claim told .removed) := by
  have above : now ≤ now + 1 := UInt32.le_of_lt rises
  cases stands with
  | unissued => exact .unissued fun _ => rfl
  | waiting current => exact .ended (fun _ => rfl) (current ▸ above) (by simp [tell, IsOut, Deed.ends, endings])
  | building current => exact .ended (fun _ => rfl) (current ▸ above) (by simp [tell, IsOut, Deed.ends, endings])
  | ended _ passed ending =>
    have same : tell claim told .removed = told := if_neg (by simp [Deed.claim?, not_out_of_ending ending])
    rw [same]
    exact .ended (fun _ => rfl) (UInt32.le_trans passed above) ending

/-- A version that has not gone round is counted by the deeds that raise it. -/
private theorem lt_add_one (below : now.toNat + 1 < UInt32.size) : (now + 1).toNat = now.toNat + 1 ∧ now < now + 1 := by
  have sum : (now + 1).toNat = now.toNat + 1 := by
    rw [UInt32.toNat_add]
    exact Nat.mod_eq_of_lt below
  exact ⟨sum, UInt32.lt_iff_toNat_lt.mpr (by omega)⟩

/-- A turn moves every claim's story on, and the version by as much as its deed raises it. -/
theorem Turn.stands {deed : Option Deed} {next : UInt32} {left : Option Stage} (turn : Turn now out deed next left)
    (below : now.toNat + deed.toList.countP Deed.raises < UInt32.size) (stands : Stands claim now out told) :
    next.toNat = now.toNat + deed.toList.countP Deed.raises ∧
      Stands claim next left (deed.toList.foldl (tell claim) told) := by
  cases turn with
  | quiet => exact ⟨rfl, stands⟩
  | issued =>
    obtain ⟨sum, rises⟩ := lt_add_one below
    exact ⟨sum, stands.issued rises⟩
  | begun => exact ⟨rfl, stands.begun⟩
  | finished => exact ⟨rfl, stands.finished⟩
  | abandoned => exact ⟨rfl, stands.abandoned⟩
  | removed =>
    obtain ⟨sum, rises⟩ := lt_add_one below
    exact ⟨sum, stands.removed rises⟩

variable {s : Store} {i : Nat}

/-- So does a whole history. -/
theorem after_stands (sound : s.Sound) (history : List Operation)
    (below : (s.version i).toNat + (s.deeds i history).countP Deed.raises < UInt32.size)
    (stands : Stands claim (s.version i) (s.flight i) told) :
    ((s.after history).version i).toNat = (s.version i).toNat + (s.deeds i history).countP Deed.raises ∧
      Stands claim ((s.after history).version i) ((s.after history).flight i)
        ((s.deeds i history).foldl (tell claim) told) := by
  induction history generalizing s told with
  | nil => exact ⟨rfl, stands⟩
  | cons operation rest ih =>
    have total : (s.deeds i (operation :: rest)).countP Deed.raises =
        (s.deed? i operation).toList.countP Deed.raises + ((s.perform operation).deeds i rest).countP Deed.raises :=
      List.countP_append
    obtain ⟨moved, next⟩ := (perform_turn sound i operation).stands (by omega) stands
    obtain ⟨reached, last⟩ := ih ((perform_outcome sound operation).sound sound) (by omega) next
    refine ⟨?_, ?_⟩
    · change (((s.perform operation).after rest).version i).toNat = _
      omega
    · rw [deeds, List.foldl_append]
      exact last

theorem stands_ofLimits (initial most : Nat) (i : Nat) (claim : UInt32) :
    Stands claim ((ofLimits initial most).version i) ((ofLimits initial most).flight i) [] :=
  .unissued fun _ => flight_vacant (live?_ofLimits initial most i)

theorem schedule_refused (flying : s.flight i ≠ none) : (s.schedule i).2 = none := by
  rcases schedule_cases s i with ⟨slot, found, accepts, _⟩ | step
  · refine absurd (flight_idle found ?_) flying
    cases stage : slot.stage <;> simp_all [Stage.acceptsClaim, Stage.isInFlight]
  · rw [step]

/-- Whoever comes with a claim that is not out is turned away, under whatever key. -/
structure Refuses (s : Store) (i : Nat) (claim : UInt32) : Prop where
  begin : (s.begin i claim).2 = false
  abandon : (s.abandon i claim).2 = false
  checkInstall : ∀ key, (s.checkInstall i key claim).isOk = false
  finish : ∀ key shape placeholder, (s.finish i key claim shape placeholder).2.isOk = false

theorem refuses_idle (idle : claim = s.version i → s.flight i = none) : s.Refuses i claim := by
  have quiet {slot : Slot} (found : s.live? i = some slot) (current : slot.version = claim) :
      slot.stage.isInFlight = false := by
    have none := idle (by rw [version_live found, current])
    simpa [flight_live found] using none
  refine ⟨?_, ?_, ?_, ?_⟩
  · rcases begin_cases s i claim with ⟨slot, found, current, stage, _⟩ | step
    · have := quiet found current
      simp [stage, Stage.isInFlight] at this
    · rw [step]
  · rcases abandon_cases s i claim with ⟨slot, found, current, flying, _⟩ | step
    · rw [quiet found current] at flying
      cases flying
    · rw [step]
  · intro key
    rcases checkInstall_cases s i key claim with ⟨slot, found, _, current, stage, _⟩ | ⟨reason, turned⟩
    · have := quiet found current
      simp [stage, Stage.isInFlight] at this
    · rw [turned]
      rfl
  · intro key shape placeholder
    rcases finish_cases s i key claim shape placeholder with ⟨slot, found, _, current, stage, _⟩ | ⟨reason, turned⟩
    · have := quiet found current
      simp [stage, Stage.isInFlight] at this
    · rw [turned]
      rfl

theorem isStale_within (roomy : s.Roomy) (inside : i < s.capacity) (claim : UInt32) :
    s.isStale i claim = decide (claim < s.version i) := by
  obtain ⟨slot, found⟩ := Option.isSome_iff_exists.mp ((slot?_isSome roomy i).mpr inside)
  simp [isStale, Store.version, found]

/-- On one slot whose version does not go round, through a history and on: the version does not fall, a claim
is issued once at most and lives one of the lives there are, no other claim is issued while it is out, it is
refused for good once it has ended, and what is stale stays stale. -/
theorem claims_live_once (initial most : Nat) (history later : List Operation) (i : Nat) (claim : UInt32)
    (unwrapped : ((ofLimits initial most).deeds i (history ++ later)).countP Deed.raises < UInt32.size) :
    let start := ofLimits initial most
    let midway := start.after history
    let final := start.after (history ++ later)
    let told := story claim (start.deeds i history)
    midway.version i ≤ final.version i ∧
      (start.deeds i history).count (.issued claim) ≤ 1 ∧
      told ∈ lives claim ∧
      (IsOut claim told → (midway.schedule i).2 = none) ∧
      (IsOver claim told → final.Refuses i claim) ∧
      (i < midway.capacity → midway.isStale i claim = true → final.isStale i claim = true) := by
  dsimp only
  have zero : ((ofLimits initial most).version i).toNat = 0 := by
    rw [(roomy_ofLimits initial most).version_eq]
    rfl
  rw [deeds_append, List.countP_append] at unwrapped
  obtain ⟨sound, tallied, widened⟩ := after_tallied (sound_ofLimits initial most) (tallied_ofLimits initial most) history
  obtain ⟨lasting, _, further⟩ := after_tallied sound tallied later
  obtain ⟨counted, stands⟩ := after_stands (sound_ofLimits initial most) history (by omega)
    (stands_ofLimits initial most i claim)
  obtain ⟨rising, last⟩ := after_stands sound later (by omega) stands
  rw [← after_append] at lasting further rising last
  have grows : ((ofLimits initial most).after history).version i ≤
      ((ofLimits initial most).after (history ++ later)).version i := UInt32.le_iff_toNat_le.mpr (by omega)
  refine ⟨grows, ?_, stands.mem_lives, ?_, ?_, ?_⟩
  · rw [← count_story]
    exact count_life stands.mem_lives
  · exact fun unended => schedule_refused (stands.flying unended)
  · exact fun past => refuses_idle (last.idle (past.foldl _))
  · intro inside stale
    rw [isStale_within sound.roomy inside, decide_eq_true_eq] at stale
    rw [isStale_within lasting.roomy (Nat.lt_of_lt_of_le inside further.wider), decide_eq_true_eq]
    exact UInt32.lt_of_lt_of_le stale grows

/-- A cell is claimed, its build begun, and the cell removed; the key comes back to the slot and is claimed again. -/
private def returning : List Operation :=
  [.add ⟨5⟩, .schedule 0, .begin 0 1, .remove ⟨5⟩, .add ⟨5⟩, .schedule 0, .begin 0 3]

/-- The first claim of a slot that was given back has ended, and the new tenant's build is not its to finish. -/
theorem claims_live_once_returning :
    ((ofLimits 0 0).deeds 0 (returning ++ [])).countP Deed.raises < UInt32.size ∧
      story 1 ((ofLimits 0 0).deeds 0 returning) = [.issued 1, .begun 1, .removed] ∧
      ((ofLimits 0 0).after (returning ++ [])).Refuses 0 1 := by
  have unwrapped : ((ofLimits 0 0).deeds 0 (returning ++ [])).countP Deed.raises < UInt32.size := by decide
  have told : story 1 ((ofLimits 0 0).deeds 0 returning) = [.issued 1, .begun 1, .removed] := by decide
  obtain ⟨_, _, _, _, refused, _⟩ := claims_live_once 0 0 returning [] 0 1 unwrapped
  exact ⟨unwrapped, told, refused (by simp [told, IsOver, Deed.ends])⟩

end TerrainStream.Store
