import TerrainStream.Proofs.Residency.Ranking

/-! Requests for one cell as one. What waits for a cell depends on which requests were recorded and to what it was
raised, and not on the order in which they came. -/

namespace TerrainStream.Residency

open Cell

namespace Priority

/-- A priority is the highest of several. -/
def Highest (p : Priority) (ps : List Priority) : Prop := p ∈ ps ∧ ∀ q ∈ ps, q.level ≤ p.level

variable {p q : Priority} {ps : List Priority}

theorem max_comm (p q : Priority) : p.max q = q.max p := by
  rw [eq_iff]
  exact Nat.max_comm ..

theorem max_right_comm (p q r : Priority) : (p.max q).max r = (p.max r).max q := by
  rw [eq_iff]
  exact Nat.max_right_comm ..

theorem Highest.push (highest : p.Highest ps) (q : Priority) : (p.max q).Highest (ps ++ [q]) := by
  obtain ⟨listed, above⟩ := highest
  rcases Nat.le_total q.level p.level with below | higher
  · have kept : p.max q = p := eq_iff.mpr (Nat.max_eq_left below)
    rw [kept]
    refine ⟨List.mem_append_left _ listed, fun other member => ?_⟩
    rcases List.mem_append.mp member with earlier | here
    · exact above other earlier
    · rwa [List.mem_singleton.mp here]
  · have taken : p.max q = q := eq_iff.mpr (Nat.max_eq_right higher)
    rw [taken]
    refine ⟨by simp, fun other member => ?_⟩
    rcases List.mem_append.mp member with earlier | here
    · exact Nat.le_trans (above other earlier) higher
    · exact Nat.le_of_eq (congrArg level (List.mem_singleton.mp here))

end Priority

namespace Request

/-- Requests for one version of a cell name one slot. -/
def Unambiguous (rs : List Request) : Prop :=
  ∀ a ∈ rs, ∀ b ∈ rs, a.key = b.key → a.version = b.version → a.index = b.index

def raisedTo (r : Request) (priority : Priority) : Request := { r with priority := r.priority.max priority }

variable {a b c e : Request}

theorem raisedTo_right_comm (r : Request) (p q : Priority) :
    (r.raisedTo p).raisedTo q = (r.raisedTo q).raisedTo p := by
  simp only [raisedTo, Priority.max_right_comm r.priority p q]

/-- Either of two requests for a cell may come first. -/
theorem merge_comm (name : a.key = b.key) (clear : a.version = b.version → a.index = b.index) :
    a.merge b = b.merge a := by
  simp only [merge, mk.injEq, UInt32.lt_iff_toNat_lt, ← UInt32.toNat_inj] at *
  refine ⟨name, ?_, ?_, Bool.or_comm .., Priority.max_comm ..⟩
  · grind
  · grind

/-- Either of two requests may be merged first with the one that waits. -/
theorem merge_right_comm (clear : b.version = c.version → b.index = c.index) :
    (a.merge b).merge c = (a.merge c).merge b := by
  simp only [merge, mk.injEq, UInt32.lt_iff_toNat_lt, ← UInt32.toNat_inj] at *
  refine ⟨trivial, ?_, ?_, Bool.or_right_comm .., Priority.max_right_comm ..⟩
  · grind
  · grind

/-- A request sums up others for its cell: it names the slot of the latest version, has the highest priority of theirs
and of those it was raised to, and is a first one if any of them is. -/
structure Sums (e : Request) (rs : List Request) (raised : List Priority) : Prop where
  claimed : ∃ r ∈ rs, r.version = e.version ∧ r.index = e.index
  latest : ∀ r ∈ rs, r.version ≤ e.version
  highest : e.priority.Highest (rs.map (·.priority) ++ raised)
  initial : e.initial = rs.any (·.initial)

variable {rs : List Request} {raised : List Priority}

theorem sums_self (r : Request) : r.Sums [r] [] where
  claimed := ⟨r, List.mem_singleton_self r, rfl, rfl⟩
  latest := by simp
  highest := by simp [Priority.Highest]
  initial := by simp

/-- Merging takes in one more request. -/
theorem Sums.merge (sums : e.Sums rs []) (r : Request) : (e.merge r).Sums (rs ++ [r]) [] where
  claimed := by
    obtain ⟨held, listed, version, index⟩ := sums.claimed
    by_cases later : e.version < r.version
    · exact ⟨r, by simp, by simp [Request.merge, later], by simp [Request.merge, later]⟩
    · exact ⟨held, by simp [listed], by simp [Request.merge, later, version], by simp [Request.merge, later, index]⟩
  latest := by
    have below (other : Request) (listed : other ∈ rs) := sums.latest other listed
    intro other listed
    simp only [List.mem_append, List.mem_singleton, Request.merge, UInt32.le_iff_toNat_le,
      UInt32.lt_iff_toNat_lt] at listed below ⊢
    grind
  highest := by
    have pushed := sums.highest.push r.priority
    rw [List.append_nil] at pushed ⊢
    rwa [List.map_append]
  initial := by simp [Request.merge, sums.initial]

/-- Raising takes in one more priority. -/
theorem Sums.raise (sums : e.Sums rs raised) (p : Priority) : (e.raisedTo p).Sums rs (raised ++ [p]) where
  claimed := sums.claimed
  latest := sums.latest
  highest := by
    have pushed := sums.highest.push p
    rwa [List.append_assoc] at pushed
  initial := sums.initial

end Request

namespace Backlog

variable {b : Backlog} {r other : Request} {key : Key}

theorem ext_get? {b c : Backlog} (same : ∀ key, b.get? key = c.get? key) : b = c :=
  congrArg mk (Std.ExtTreeMap.ext_getElem? fun key => same key)

/-- What waits for a cell once a request is recorded. -/
theorem recorded (b : Backlog) (r : Request) (key : Key) : (b.record r).get? key =
    if r.key = key then some ((b.get? key).elim r (·.merge r)) else b.get? key := by
  rw [record, get?, Table.getElem?_insert]
  split
  case isTrue here => rw [here]
  case isFalse => rfl

/-- What waits for a cell once a request is raised. -/
theorem raised (b : Backlog) (raise : Key × Priority) (key : Key) : (b.raise raise.1 raise.2).1.get? key =
    if raise.1 = key then (b.get? key).map (·.raisedTo raise.2) else b.get? key := by
  unfold Backlog.raise
  split
  case h_1 r found =>
    rw [get?, Table.getElem?_insert]
    split
    case isTrue here =>
      rw [← here, found]
      rfl
    case isFalse => rfl
  case h_2 absent =>
    split
    case isTrue here =>
      rw [← here, absent]
      rfl
    case isFalse => rfl

theorem record_right_comm (b : Backlog)
    (clear : r.key = other.key → r.version = other.version → r.index = other.index) :
    (b.record r).record other = (b.record other).record r := by
  refine ext_get? fun key => ?_
  simp only [recorded]
  by_cases first : r.key = key <;> by_cases second : other.key = key
  case pos =>
    have name := first.trans second.symm
    simp only [first, second, ↓reduceIte]
    cases b.get? key with
    | none => exact congrArg some (Request.merge_comm name (clear name))
    | some e => exact congrArg some (Request.merge_right_comm (clear name))
  all_goals simp only [first, second, ↓reduceIte]

theorem raise_right_comm (b : Backlog) (one two : Key × Priority) :
    ((b.raise one.1 one.2).1.raise two.1 two.2).1 = ((b.raise two.1 two.2).1.raise one.1 one.2).1 := by
  refine ext_get? fun key => ?_
  simp only [raised]
  by_cases first : one.1 = key <;> by_cases second : two.1 = key
  case pos =>
    simp only [first, second, ↓reduceIte, Option.map_map]
    refine congrArg (Option.map · (b.get? key)) (funext fun r => ?_)
    exact r.raisedTo_right_comm one.2 two.2
  all_goals simp only [first, second, ↓reduceIte]

def recordAll (b : Backlog) (rs : List Request) : Backlog := rs.foldl record b

def raiseAll (b : Backlog) (raises : List (Key × Priority)) : Backlog :=
  raises.foldl (fun b raise => (b.raise raise.1 raise.2).1) b

theorem recordAll_perm {rs rs' : List Request} (b : Backlog) (clear : Request.Unambiguous rs) (same : rs.Perm rs') :
    b.recordAll rs = b.recordAll rs' :=
  same.foldl_eq' (fun r listed other listed' b => b.record_right_comm (clear r listed other listed')) b

theorem raiseAll_perm {raises raises' : List (Key × Priority)} (b : Backlog) (same : raises.Perm raises') :
    b.raiseAll raises = b.raiseAll raises' :=
  same.foldl_eq' (fun one _ two _ b => b.raise_right_comm one two) b

/-- What waits for a cell sums up the requests that were recorded for it and the priorities it was raised to, and
nothing waits where none was recorded. -/
def Tells (b : Backlog) (key : Key) (rs : List Request) (raised : List Priority) : Prop :=
  (b.get? key).elim (rs = []) (·.Sums rs raised)

variable {rs : List Request} {ps : List Priority}

theorem tells_held (b : Backlog) (key : Key) : b.Tells key (b.get? key).toList [] := by
  rw [Tells]
  cases b.get? key with
  | none => rfl
  | some e => exact e.sums_self

theorem Tells.record (tells : b.Tells key rs []) (r : Request) :
    (b.record r).Tells key (rs ++ [r].filter (·.key = key)) [] := by
  rw [Tells] at tells ⊢
  rw [recorded]
  by_cases here : r.key = key
  · simp only [here, ↓reduceIte, List.filter_cons, decide_true, List.filter_nil]
    cases held : b.get? key with
    | none =>
      rw [held] at tells
      rw [show rs = [] from tells]
      exact r.sums_self
    | some e =>
      rw [held] at tells
      exact Request.Sums.merge tells r
  · simpa [here] using tells

theorem Tells.raise (tells : b.Tells key rs ps) (raise : Key × Priority) :
    (b.raise raise.1 raise.2).1.Tells key rs (ps ++ ([raise].filter (·.1 = key)).map (·.2)) := by
  rw [Tells] at tells ⊢
  rw [raised]
  by_cases here : raise.1 = key
  · simp only [here, ↓reduceIte, List.filter_cons, decide_true, List.filter_nil]
    cases held : b.get? key with
    | none =>
      rw [held] at tells
      exact tells
    | some e =>
      rw [held] at tells
      exact Request.Sums.raise tells raise.2
  · simpa [here] using tells

theorem Tells.recordAll (tells : b.Tells key rs []) (more : List Request) :
    (b.recordAll more).Tells key (rs ++ more.filter (·.key = key)) [] := by
  induction more generalizing b rs with
  | nil =>
    rw [List.filter_nil, List.append_nil]
    exact tells
  | cons r more ih =>
    have rest := ih (tells.record r)
    rwa [List.append_assoc, ← List.filter_append] at rest

theorem Tells.raiseAll (tells : b.Tells key rs ps) (raises : List (Key × Priority)) :
    (b.raiseAll raises).Tells key rs (ps ++ (raises.filter (·.1 = key)).map (·.2)) := by
  induction raises generalizing b ps with
  | nil =>
    rw [List.filter_nil, List.map_nil, List.append_nil]
    exact tells
  | cons raise raises ih =>
    have rest := ih (tells.raise raise)
    rwa [List.append_assoc, ← List.map_append, ← List.filter_append] at rest

/-- A backlog that its operations make. -/
inductive Made : Backlog → Prop
  | empty : Made empty
  | record {b : Backlog} (made : Made b) (r : Request) : Made (b.record r)
  | raise {b : Backlog} (made : Made b) (key : Key) (priority : Priority) : Made (b.raise key priority).1
  | remove {b : Backlog} (made : Made b) (key : Key) : Made (b.remove key).1
  | extract {b : Backlog} (made : Made b) (drop : Request → Bool) : Made (b.extract drop).1
  | takeRanked {b : Backlog} (made : Made b) (most : Nat) : Made (b.takeRanked most).1

theorem Keyed.merge (keyed : b.Keyed) (r : Request) : (b.record r).Keyed := by
  have name : ((b.get? r.key).elim r (·.merge r)).key = r.key := by
    cases held : b.get? r.key with
    | none => rfl
    | some e => exact keyed r.key e held
  have inserted := keyed.insert ((b.get? r.key).elim r (·.merge r))
  rwa [name] at inserted

theorem Keyed.raise (keyed : b.Keyed) (key : Key) (priority : Priority) : (b.raise key priority).1.Keyed := by
  rcases raise_cases b key priority with ⟨r, found, raised⟩ | raised
  · have inserted := keyed.insert (r.raisedTo priority)
    rw [raised]
    rwa [show (r.raisedTo priority).key = key from keyed key r found] at inserted
  · rwa [raised]

theorem Made.keyed (made : b.Made) : b.Keyed := by
  induction made with
  | empty => exact keyed_empty
  | record _ r ih => exact ih.merge r
  | raise _ key priority ih => exact ih.raise key priority
  | remove _ key ih => exact ih.erase key
  | extract _ drop ih => exact ih.extract drop
  | takeRanked _ most ih => exact (takeRanked_perm ih most).1

/-- Requests that are recorded in any order, and raised in any order after that, leave the same backlog, in which one
request sums up those for its cell. Taking by rank in two goes is taking in one; what is taken is in strict order, it
and what is left are what there was, and all of it outranks all that is left. -/
theorem requests_coalesce_and_rank (made : b.Made) :
    (∀ (rs rs' : List Request) (raises raises' : List (Key × Priority)),
      Request.Unambiguous rs → rs.Perm rs' → raises.Perm raises' →
      (b.recordAll rs).raiseAll raises = (b.recordAll rs').raiseAll raises' ∧
      ∀ key, ((b.recordAll rs).raiseAll raises).Tells key ((b.get? key).toList ++ rs.filter (·.key = key))
        ((raises.filter (·.1 = key)).map (·.2))) ∧
    (∀ most more, b.takeRanked (most + more) = (((b.takeRanked most).1.takeRanked more).1,
      (b.takeRanked most).2 ++ ((b.takeRanked most).1.takeRanked more).2)) ∧
    ∀ most, (b.takeRanked most).2.Pairwise Request.Outranks ∧
      (b.takeRanked most).2.length = min most b.size ∧
      b.toList.Perm ((b.takeRanked most).2 ++ (b.takeRanked most).1.toList) ∧
      ∀ r ∈ (b.takeRanked most).2, ∀ other ∈ (b.takeRanked most).1.toList, r.Outranks other := by
  have keyed := made.keyed
  refine ⟨fun rs rs' raises raises' clear same alike => ⟨?_, fun key => ?_⟩, keyed.takeRanked_takeRanked,
    fun most => ⟨keyed.takeRanked_pairwise most, takeRanked_length b most, (takeRanked_perm keyed most).2, ?_⟩⟩
  · rw [recordAll_perm b clear same, raiseAll_perm _ alike]
  · have summed := ((tells_held b key).recordAll rs).raiseAll raises
    rwa [List.nil_append] at summed
  · intro r taken other listed
    obtain ⟨key, left⟩ := mem_toList.mp listed
    exact keyed.takeRanked_outranks taken left

/-- A load and an edit of one cell wait as one edit of the later version, whichever comes first, and it is taken before
another cell that is raised to a load. -/
theorem requests_coalesce_and_rank_edited :
    let load : Request := ⟨⟨5⟩, 0, 1, true, .load⟩
    let edit : Request := ⟨⟨5⟩, 2, 3, false, .edit⟩
    let other : Request := ⟨⟨7⟩, 1, 9, true, ⟨0⟩⟩
    let waiting := (empty.recordAll [load, edit, other]).raiseAll [(⟨7⟩, .load)]
    Request.Unambiguous [load, edit, other] ∧
    waiting = (empty.recordAll [other, edit, load]).raiseAll [(⟨7⟩, .load)] ∧
    waiting.Tells ⟨5⟩ [load, edit] [] ∧
    waiting.Made ∧
    (waiting.takeRanked 2).2 = (waiting.takeRanked 1).2 ++ ((waiting.takeRanked 1).1.takeRanked 1).2 ∧
    (waiting.takeRanked 2).2 = [⟨⟨5⟩, 2, 3, true, .edit⟩, ⟨⟨7⟩, 1, 9, true, .load⟩] := by
  intro load edit other waiting
  have clear : Request.Unambiguous [load, edit, other] := by simp [Request.Unambiguous, load, edit, other]
  obtain ⟨same, tells⟩ := (requests_coalesce_and_rank .empty).1 [load, edit, other] [other, edit, load] [(⟨7⟩, .load)]
    [(⟨7⟩, .load)] clear (by decide) (.refl _)
  have made : waiting.Made := ((((Made.empty.record load).record edit).record other).raise ⟨7⟩ .load)
  have split := (requests_coalesce_and_rank made).2.1 1 1
  have listed : waiting.toList = [⟨⟨5⟩, 2, 3, true, .edit⟩, ⟨⟨7⟩, 1, 9, true, .load⟩] := by decide +kernel
  refine ⟨clear, same, tells ⟨5⟩, made, congrArg Prod.snd split, ?_⟩
  rw [takeRanked, ranked, listed, List.mergeSort_of_pairwise (by decide)]
  rfl

end Backlog

end TerrainStream.Residency
