import Mathlib.Data.List.Infix
import TerrainStream.Proofs.Store.Accounts

/-! Room for new cells. A store turns a new cell away only when every slot that it may ever have is taken, and
letting a cell in is seen in its own slot and nowhere else. -/

namespace TerrainStream.Store

open Cell

variable {s s' : Store} {i j : Nat} {key : Key}

theorem add_known (found : s.index[key]? = some i) : s.add key = (s, .ok i) := by
  simp [add, found]

/-- With as many cells as the limit allows, no slot is spare, none is left to hand out, and there is no growing. -/
theorem add_full (sound : s.Sound) (tallied : s.Tallied) (absent : s.index[key]? = none) (full : s.size = s.limit) :
    s.add key = (s, .error (.exhausted s.limit)) := by
  have counted : s.size = s.tenants.length := tallied.indexed
  have shared := tallied.shared
  have used := sound.roomy.used
  have bounded := sound.roomy.bounded
  have spent : s.free = [] := List.length_eq_zero_iff.mp (by omega)
  have whole : s.capacity = s.limit := by omega
  have stuck : s.grow? = none := if_pos (Nat.le_of_eq whole.symm)
  simp only [add, absent, spent, stuck, whole]
  rw [if_neg (by omega)]

/-- A store that turns a cell away has used up its slots and cannot grow. -/
private theorem refused_full {fault : Fault} (tallied : s.Tallied) (refused : s.add key = (s', .error fault)) :
    s.limit ≤ s.size := by
  have counted : s.size = s.tenants.length := tallied.indexed
  have shared := tallied.shared
  unfold add at refused
  split at refused
  · cases refused
  · split at refused
    · cases refused
    · rename_i spent
      rw [spent, List.length_nil] at shared
      dsimp only at refused
      split at refused
      · cases refused
      · split at refused
        · cases refused
        · rename_i used stuck
          have bounded : s.limit ≤ s.capacity := by
            unfold grow? at stuck
            split at stuck
            · assumption
            · cases stuck
          omega

theorem add_room (sound : s.Sound) (tallied : s.Tallied) (absent : s.index[key]? = none) (room : s.size ≠ s.limit) :
    ∃ s' i, s.add key = (s', .ok i) ∧ Admitted s key s' i := by
  rcases add_cases sound key with ⟨i, found, _⟩ | ⟨s', i, step, admitted, _⟩ | ⟨fault, step⟩
  · rw [absent] at found
    cases found
  · exact ⟨s', i, step, admitted⟩
  · have counted : s.size = s.tenants.length := tallied.indexed
    have full := refused_full tallied step
    have shared := tallied.shared
    have used := sound.roomy.used
    have bounded := sound.roomy.bounded
    exact absurd (show s.size = s.limit by omega) room

theorem add_elsewhere (added : s.add key = (s', .ok i)) (other : j ≠ i) : s'.slots[j]? = s.slots[j]? := by
  have settled (s : Store) : (s.settle i key).slots[j]? = s.slots[j]? := by
    rw [settle, Array.getElem?_modify, if_neg (Ne.symm other)]
  have next (s : Store) (here : s.slots.size = i) : (s.settleNext key).slots[j]? = s.slots[j]? := by
    rw [settleNext, Array.getElem?_push, if_neg (here ▸ other)]
  unfold add at added
  split at added
  · cases added
    rfl
  · split at added
    · cases added
      exact settled _
    · dsimp only at added
      split at added
      · cases added
        exact next s rfl
      · split at added
        · rename_i grown grew
          obtain ⟨_, rfl⟩ := grow_cases grew
          cases added
          exact next _ rfl
        · cases added

/-- A slot within the capacity looks as it did, whether or not the store grew. -/
theorem slot?_add (sound : s.Sound) (added : s.add key = (s', .ok i)) (other : j ≠ i) (inside : j < s.capacity) :
    s'.slot? j = s.slot? j := by
  have wider : s.capacity ≤ s'.capacity := by
    have step := (add_widened s key).wider
    rwa [added] at step
  have still : j < s'.capacity := Nat.lt_of_lt_of_le inside wider
  rw [(sound.added added).roomy.slot?_eq, sound.roomy.slot?_eq, add_elsewhere added other, if_pos inside, if_pos still]

/-- The list of cells that a granted request leaves. -/
def enroll (keys : List Key) : Operation → List Key
  | .add key => keys.insert key
  | .remove key => keys.erase key
  | _ => keys

/-- The cells that a history asks to let in and does not ask to turn out later. -/
def roster (history : List Operation) : List Key := history.foldl enroll []

/-- Whether a history gets a slot for every cell that it asks to let in. -/
def Grants (s : Store) : List Operation → Prop
  | [] => True
  | operation :: rest =>
    (∀ key, operation = .add key → (s.add key).2.isOk = true) ∧ (s.perform operation).Grants rest

/-- A list names the cells of a store, each once. -/
structure Enrolled (s : Store) (keys : List Key) : Prop where
  distinct : keys.Nodup
  known : ∀ key, key ∈ keys ↔ ∃ i, s.index[key]? = some i
  counted : s.size = keys.length

variable {keys : List Key}

theorem enrolled_ofLimits (initial most : Nat) : (ofLimits initial most).Enrolled [] :=
  ⟨List.nodup_nil, fun key => by simp [ofLimits], rfl⟩

private theorem Enrolled.same (enrolled : s.Enrolled keys) (index : s'.index = s.index) : s'.Enrolled keys := by
  refine ⟨enrolled.distinct, ?_, ?_⟩
  · rw [index]
    exact enrolled.known
  · rw [size, index]
    exact enrolled.counted

private theorem Enrolled.stranger (enrolled : s.Enrolled keys) (absent : s.index[key]? = none) : key ∉ keys := by
  rw [enrolled.known]
  rintro ⟨i, found⟩
  rw [absent] at found
  cases found

private theorem Enrolled.admitted (enrolled : s.Enrolled keys) (admitted : Admitted s key s' i) :
    s'.Enrolled (keys.insert key) := by
  have stranger := enrolled.stranger admitted.absent
  rw [List.insert_of_not_mem stranger]
  refine ⟨List.nodup_cons.mpr ⟨stranger, enrolled.distinct⟩, fun other => ?_, ?_⟩
  · rw [List.mem_cons, enrolled.known, admitted.index, Table.getElem?_insert]
    by_cases same : key = other
    · simp [same]
    · simp [same, Ne.symm same]
  · rw [admitted.size, enrolled.counted, List.length_cons]

private theorem Enrolled.departed {slot : Slot} (enrolled : s.Enrolled keys) (found : s.index[key]? = some i)
    (departed : Departed s key s' i slot) : s'.Enrolled (keys.erase key) := by
  have listed : key ∈ keys := (enrolled.known key).mpr ⟨i, found⟩
  refine ⟨enrolled.distinct.erase key, fun other => ?_, ?_⟩
  · rw [enrolled.distinct.mem_erase_iff, enrolled.known, departed.index, Table.getElem?_erase]
    by_cases same : key = other
    · simp [same]
    · simp [same, Ne.symm same]
  · rw [departed.size found, enrolled.counted, List.length_erase_of_mem listed]

private theorem Enrolled.remove (sound : s.Sound) (enrolled : s.Enrolled keys) (key : Key) :
    (s.remove key).1.Enrolled (keys.erase key) := by
  rcases remove_cases sound key with ⟨s', i, slot, step, found, departed, _⟩ | ⟨absent, step⟩
  · rw [step]
    exact enrolled.departed found departed
  · rw [step, List.erase_of_not_mem (enrolled.stranger absent)]
    exact enrolled

/-- While the list that results is no longer than the limit, a cell that is asked in gets its slot. -/
private theorem Enrolled.add (sound : s.Sound) (tallied : s.Tallied) (enrolled : s.Enrolled keys)
    (fits : (keys.insert key).length ≤ s.limit) :
    (s.add key).2.isOk = true ∧ (s.add key).1.Enrolled (keys.insert key) := by
  cases found : s.index[key]? with
  | some i =>
    rw [add_known found, List.insert_of_mem ((enrolled.known key).mpr ⟨i, found⟩)]
    exact ⟨rfl, enrolled⟩
  | none =>
    rw [List.length_insert_of_not_mem (enrolled.stranger found), ← enrolled.counted] at fits
    obtain ⟨s', i, step, admitted⟩ := add_room sound tallied found (Nat.ne_of_lt fits)
    rw [step]
    exact ⟨rfl, enrolled.admitted admitted⟩

/-- Only letting in and turning out change who is there. -/
private theorem perform_index (s : Store) {operation : Operation} (letsIn : ∀ key, operation ≠ .add key)
    (turnsOut : ∀ key, operation ≠ .remove key) : (s.perform operation).index = s.index := by
  have rewrite := s.perform_rewrite letsIn turnsOut
  generalize s.perform operation = s' at rewrite ⊢
  cases rewrite with
  | same => rfl
  | put => exact put_index _ _ _

private theorem Enrolled.perform (sound : s.Sound) (tallied : s.Tallied) (enrolled : s.Enrolled keys)
    (operation : Operation) (fits : (enroll keys operation).length ≤ s.limit) :
    (∀ key, operation = .add key → (s.add key).2.isOk = true) ∧
      (s.perform operation).Enrolled (enroll keys operation) := by
  by_cases letsIn : ∃ key, operation = .add key
  · obtain ⟨key, rfl⟩ := letsIn
    obtain ⟨granted, next⟩ := enrolled.add sound tallied fits
    exact ⟨fun other same => by cases same; exact granted, next⟩
  · refine ⟨fun key same => absurd ⟨key, same⟩ letsIn, ?_⟩
    by_cases turnsOut : ∃ key, operation = .remove key
    · obtain ⟨key, rfl⟩ := turnsOut
      exact enrolled.remove sound key
    · have still : enroll keys operation = keys := by
        cases operation with
        | add key => exact absurd ⟨key, rfl⟩ letsIn
        | remove key => exact absurd ⟨key, rfl⟩ turnsOut
        | _ => rfl
      rw [still]
      exact enrolled.same (perform_index s (fun key same => letsIn ⟨key, same⟩) fun key same => turnsOut ⟨key, same⟩)

/-- Histories that never ask for more cells at once than the limit are granted all they ask for. -/
theorem grants_within (sound : s.Sound) (tallied : s.Tallied) (enrolled : s.Enrolled keys)
    (history : List Operation) (fits : ∀ earlier, earlier <+: history → (earlier.foldl enroll keys).length ≤ s.limit) :
    s.Grants history := by
  induction history generalizing s keys with
  | nil => trivial
  | cons operation rest ih =>
    have outcome := perform_outcome sound operation
    have widened := outcome.widened
    obtain ⟨granted, next⟩ := enrolled.perform sound tallied operation (fits [operation] ⟨rest, rfl⟩)
    refine ⟨granted, ih (outcome.sound sound) (outcome.tallied sound tallied) next ?_⟩
    intro earlier before
    rw [widened.limit]
    exact fits (operation :: earlier) (List.cons_prefix_cons.mpr ⟨rfl, before⟩)

/-- After every history of a store that started empty: a cell that is there keeps its slot; a new cell is turned away
just when there are as many cells as the limit allows, which changes nothing; and else it gets a vacant slot with
every field at its default but the version, while all other slots look as they did. So a history that
never asks for more cells at once than the limit gets a slot for each. -/
theorem only_full_stores_refuse (initial most : Nat) (history : List Operation) (key : Key) :
    let start := ofLimits initial most
    let s := start.after history
    (∀ i, s.indexOf key = some i → s.add key = (s, .ok i)) ∧
    (s.indexOf key = none → s.size = start.limit → s.add key = (s, .error (.exhausted start.limit))) ∧
    (s.indexOf key = none → s.size ≠ start.limit →
      ∃ s' i, s.add key = (s', .ok i) ∧ s.live? i = none ∧ s'.indexOf key = some i ∧
        s'.live? i = some
          { live := true, key, stage := .unloaded, shape := none, placeholder := true, active := false,
            version := s.version i, refs := 0 } ∧
        ∀ j, j ≠ i → j < s.capacity →
          s'.live? j = s.live? j ∧ s'.stage j = s.stage j ∧ s'.version j = s.version j) ∧
    ((∀ earlier, earlier <+: history → (roster earlier).length ≤ start.limit) → start.Grants history) := by
  intro start s
  obtain ⟨sound, tallied, widened⟩ := after_tallied (sound_ofLimits initial most) (tallied_ofLimits initial most) history
  have limit : s.limit = start.limit := widened.limit
  refine ⟨fun i found => add_known found, fun absent full => ?_, fun absent room => ?_, fun fits => ?_⟩
  · rw [← limit] at full ⊢
    exact add_full sound tallied absent full
  · rw [← limit] at room
    obtain ⟨s', i, added, admitted⟩ := add_room sound tallied absent room
    refine ⟨s', i, added, admitted.vacant, add_indexed added, admitted.here, fun j other inside => ?_⟩
    have looks := slot?_add sound added other inside
    refine ⟨?_, ?_, ?_⟩
    · rw [admitted.sees, if_neg (Ne.symm other)]
    · rw [Store.stage, looks, Store.stage]
    · rw [Store.version, looks, Store.version]
  · exact grants_within (sound_ofLimits initial most) (tallied_ofLimits initial most)
      (enrolled_ofLimits initial most) history fits

/-- One page of slots is filled with as many cells. -/
private def crowd : List Operation := (List.range 64).map fun n => .add ⟨UInt64.ofNat n⟩

/-- Then one cell leaves and another comes. -/
private def turnover : List Operation := crowd ++ [.remove ⟨7⟩, .add ⟨64⟩]

/-- A full page turns the next cell away, and has a slot for it once another cell has left. -/
theorem only_full_stores_refuse_crowded :
    let start := ofLimits 0 1
    let s := start.after crowd
    s.indexOf ⟨64⟩ = none ∧ s.size = start.limit ∧ s.add ⟨64⟩ = (s, .error (.exhausted 64)) ∧ start.Grants turnover := by
  intro start s
  have absent : s.indexOf ⟨64⟩ = none := by decide +kernel
  have full : s.size = start.limit := by decide +kernel
  have fits : ∀ earlier ∈ turnover.inits, (roster earlier).length ≤ start.limit := by decide +kernel
  obtain ⟨_, refused, _⟩ := only_full_stores_refuse 0 1 crowd ⟨64⟩
  obtain ⟨_, _, _, grants⟩ := only_full_stores_refuse 0 1 turnover ⟨64⟩
  exact ⟨absent, full, refused absent full, grants fun earlier before => fits earlier ((List.mem_inits _ _).mpr before)⟩

end TerrainStream.Store
