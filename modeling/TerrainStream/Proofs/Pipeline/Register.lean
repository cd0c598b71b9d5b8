import Mathlib.Algebra.BigOperators.Group.List.Basic
import TerrainStream.Physics.Scene
import TerrainStream.Proofs.Pipeline.Heralds
import TerrainStream.Proofs.Pipeline.Merging
import TerrainStream.Proofs.Shape.Partition

/-! The tenancies of cells, from the time that a cell is let into the store until it is removed. A register keeps for
each of them which builds were installed in it, so that first builds can be told from later ones, and counted. -/

namespace TerrainStream

open Cell Store Shape Collision Build Residency Physics World

variable {σ ω : Type}

/-- For every tenancy, whether each build that was installed in it went in as a first one. -/
structure Register where
  /-- The tenancies that are over. -/
  ended : List (List Bool)
  /-- The tenancy of the cell that is there. -/
  current : Key → List Bool

namespace Register

def blank : Register := ⟨[], fun _ => []⟩

/-- A build is installed. -/
def install (reg : Register) (d : Delivery) : Register :=
  { reg with current := fun key => if key = d.key then reg.current key ++ [d.initial] else reg.current key }

/-- Some cells leave a store and others come. -/
def turnOver (reg : Register) (before after : Store) : Register where
  ended := reg.ended ++ (before.index.keys.filter fun key => !after.contains key).map reg.current
  current := fun key => if after.contains key then reg.current key else []

/-- The tenancies that are over, and those that go on in a store. -/
def tenancies (reg : Register) (s : Store) : List (List Bool) := reg.ended ++ s.index.keys.map reg.current

end Register

namespace Pipeline

/-- A delivery that is not turned away goes into the register. -/
def enterApply [Simulation σ] (site : Site σ) (reg : Register) : Command → Register
  | .install d => if (site.apply (.install d)).2.installed = 1 then reg.install d else reg
  | _ => reg

def enterDrain [Simulation σ] (site : Site σ) (reg : Register) : List Command → Register
  | [] => reg
  | command :: rest => enterDrain (site.apply command).1 (enterApply site reg command) rest

variable [Simulation σ] [Supplier ω]

/-- A pass removes cells only when it has let in those that it lets in, so what is there before and after has stayed;
in a cell that comes and goes within one pass nothing is installed. -/
def enter (p : Pipeline σ ω) (reg : Register) : Move ω → Register
  | .pass => reg.turnOver p.store p.pass.1.store
  | .drain most => enterDrain ⟨p.sim, p.store, p.interludes.addition⟩ reg (p.commands.firsts most)
  | _ => reg

/-- The register after some moves. -/
def register (p : Pipeline σ ω) (reg : Register) : List (Move ω) → Register
  | [] => reg
  | m :: rest => register (p.move m) (p.enter reg m) rest

end Pipeline

namespace Register

/-- What all tenancies come to, each of them counted by its builds. -/
def sum (reg : Register) (s : Store) (f : List Bool → Nat) : Nat := ((reg.tenancies s).map f).sum

variable {reg : Register} {s s' : Store} {f : List Bool → Nat}

theorem sum_eq (reg : Register) (s : Store) (f : List Bool → Nat) :
    reg.sum s f = (reg.ended.map f).sum + (s.index.keys.map fun key => f (reg.current key)).sum := by
  simp only [sum, tenancies, List.map_append, List.sum_append, List.map_map, Function.comp_def]

theorem mem_keys {key : Key} : key ∈ s.index.keys ↔ s.contains key = true := by
  rw [Std.ExtTreeMap.mem_keys, contains, Std.ExtTreeMap.contains_iff_mem]

private theorem sum_filter_add {α : Type} (keep : α → Bool) (g : α → Nat) (xs : List α) :
    (xs.map g).sum = ((xs.filter keep).map g).sum + ((xs.filter fun x => !keep x).map g).sum := by
  rw [← List.sum_append, ← List.map_append]
  exact ((List.filter_append_perm keep xs).map g).sum_eq.symm

/-- What the tenancies come to does not change as cells come and go, if tenancies without builds count for nothing. -/
theorem turnOver_sum (absent : ∀ key, s.contains key = false → reg.current key = []) (bare : f [] = 0) :
    (reg.turnOver s s').sum s' f = reg.sum s f := by
  have stays : ((s.index.keys.filter s'.contains).map fun key => f (reg.current key)).sum =
      (s'.index.keys.map fun key => f (reg.current key)).sum := by
    have same : (s.index.keys.filter s'.contains).Perm (s'.index.keys.filter s.contains) := by
      refine (List.perm_ext_iff_of_nodup (Std.ExtTreeMap.nodup_keys.filter _) (Std.ExtTreeMap.nodup_keys.filter _)).mpr ?_
      intro key
      simp only [List.mem_filter, mem_keys, and_comm]
    have newcomers : ((s'.index.keys.filter fun key => !s.contains key).map fun key => f (reg.current key)).sum = 0 := by
      refine List.sum_eq_zero fun n listed => ?_
      obtain ⟨key, new, rfl⟩ := List.mem_map.mp listed
      have vacant : s.contains key = false := by simpa using (List.mem_filter.mp new).2
      rw [absent key vacant, bare]
    rw [sum_filter_add s.contains _ s'.index.keys, newcomers, Nat.add_zero]
    exact (same.map _).sum_eq
  have current : (s'.index.keys.map fun key => f ((reg.turnOver s s').current key)).sum =
      (s'.index.keys.map fun key => f (reg.current key)).sum := by
    refine congrArg List.sum (List.map_congr_left fun key listed => ?_)
    exact congrArg f (if_pos (mem_keys.mp listed))
  rw [sum_eq, sum_eq, current, ← stays, sum_filter_add s'.contains _ s.index.keys]
  simp only [turnOver, List.map_append, List.sum_append, List.map_map, Function.comp_def]
  omega

/-- A build that is installed changes what one tenancy counts for. -/
theorem install_sum {d : Delivery} (there : s.contains d.key = true) (same : s'.index = s.index) :
    (reg.install d).sum s' f + f (reg.current d.key) = reg.sum s f + f (reg.current d.key ++ [d.initial]) := by
  have listed := List.perm_cons_erase (mem_keys.mpr there)
  have once := listed.nodup_iff.mp Std.ExtTreeMap.nodup_keys
  have others : ((s.index.keys.erase d.key).map fun key => f ((reg.install d).current key)).sum =
      ((s.index.keys.erase d.key).map fun key => f (reg.current key)).sum := by
    refine congrArg List.sum (List.map_congr_left fun key member => ?_)
    have elsewhere : key ≠ d.key := fun here => (List.nodup_cons.mp once).1 (here ▸ member)
    exact congrArg f (if_neg elsewhere)
  have here : (reg.install d).current d.key = reg.current d.key ++ [d.initial] := if_pos rfl
  rw [sum_eq, sum_eq, same, (listed.map _).sum_eq, (listed.map fun key => f (reg.current key)).sum_eq, List.map_cons,
    List.map_cons, List.sum_cons, List.sum_cons, others, here]
  simp only [install]
  omega

/-- Of the builds of one tenancy the first one, and it alone, went in as a first one. -/
def Headed (installs : List Bool) : Prop := ∀ n first, installs[n]? = some first → (first = true ↔ n = 0)

theorem headed_nil : Headed [] := by
  intro n first found
  cases found

theorem Headed.push {installs : List Bool} (headed : Headed installs) : Headed (installs ++ [installs.isEmpty]) := by
  intro n first found
  rw [List.getElem?_append] at found
  split at found
  · exact headed n first found
  · obtain ⟨at_end, rfl⟩ : n - installs.length = 0 ∧ installs.isEmpty = first := by
      simpa [List.getElem?_singleton] using found
    rw [List.isEmpty_iff, ← List.length_eq_zero_iff]
    omega

/-- Cells without a build are those in whose tenancies nothing was installed; every tenancy has its first build first,
and the tally counts first builds and builds as the tenancies have them. -/
structure Records (reg : Register) (s : Store) (t : Tally) : Prop where
  cells : ∀ i slot, s.live? i = some slot → slot.isBare = (reg.current slot.key).isEmpty
  absent : ∀ key, s.contains key = false → reg.current key = []
  headed : ∀ installs ∈ reg.tenancies s, Headed installs
  firsts : t.firstInstalls = reg.sum s fun installs => (!installs.isEmpty).toNat
  installs : t.installed = reg.sum s List.length

theorem blank_records (initial most : Nat) : blank.Records (Store.ofLimits initial most) Tally.zero := by
  have bare : (Store.ofLimits initial most).index.keys = [] := rfl
  have empty : blank.tenancies (Store.ofLimits initial most) = [] := by
    rw [tenancies, bare]
    rfl
  refine ⟨fun i slot living => ?_, fun _ _ => rfl, fun installs listed => ?_, ?_, ?_⟩
  · cases (live?_ofLimits initial most i).symm.trans living
  · rw [empty] at listed
    cases listed
  · rw [sum, empty]
    rfl
  · rw [sum, empty]
    rfl

namespace Records

variable {t t' : Tally} {i : Nat} {slot : Slot}

/-- Nothing is entered while every cell keeps the build that it has. -/
theorem inherits (records : reg.Records s t) (inherits : Inherits s s') (index : s'.index = s.index) :
    reg.Records s' t := by
  have same : reg.tenancies s' = reg.tenancies s := by rw [tenancies, tenancies, index]
  refine ⟨fun i slot living => ?_, fun key vacant => ?_, same ▸ records.headed, ?_, ?_⟩
  · obtain ⟨old, before, owner, _⟩ := id (inherits i slot living)
    rw [(inherits i slot living).isBare before, ← owner]
    exact records.cells i old before
  · rw [contains, index] at vacant
    exact records.absent key vacant
  · rw [sum, same]
    exact records.firsts
  · rw [sum, same]
    exact records.installs

theorem current_headed (records : reg.Records s t) (key : Key) : Headed (reg.current key) := by
  cases there : s.contains key with
  | true => exact records.headed _ (List.mem_append_right _ (List.mem_map_of_mem (mem_keys.mpr there)))
  | false => exact records.absent key there ▸ headed_nil

/-- A build that is installed is a first one for the record if it is one for the cell. -/
theorem install (records : reg.Records s t) (sound : s.Sound) (found : s.live? i = some slot) {d : Delivery}
    (owner : slot.key = d.key) (first : d.initial = slot.isBare) {shape : Option Handle}
    (boxed : d.placeholder = true → shape.isSome = true) (counted : t'.firstInstalls = d.initial.toNat)
    (one : t'.installed = 1) :
    (reg.install d).Records (s.put i { slot with shape, placeholder := d.placeholder, stage := .ready }) (t + t') := by
  have before : d.initial = (reg.current d.key).isEmpty := by
    rw [first, records.cells i slot found, owner]
  have there : s.contains d.key = true := owner ▸ sound.contains_key found
  have here : (reg.install d).current d.key = reg.current d.key ++ [d.initial] := if_pos rfl
  have elsewhere {key : Key} (other : key ≠ d.key) : (reg.install d).current key = reg.current key := if_neg other
  have change (f : List Bool → Nat) :
      (reg.install d).sum (s.put i { slot with shape, placeholder := d.placeholder, stage := .ready }) f +
        f (reg.current d.key) = reg.sum s f + f (reg.current d.key ++ [d.initial]) := install_sum there rfl
  refine ⟨fun j other living => ?_, fun key vacant => ?_, fun installs listed => ?_, ?_, ?_⟩
  · rw [live?_put found (show ({ slot with shape, placeholder := d.placeholder, stage := .ready } : Slot).live = slot.live
      from rfl)] at living
    split at living
    · cases living
      have full : (reg.current d.key ++ [d.initial]).isEmpty = false := by simp
      rw [show ({ slot with shape, placeholder := d.placeholder, stage := .ready } : Slot).key = d.key from owner, here,
        full, Slot.isBare]
      cases coarse : d.placeholder with
      | false => rfl
      | true => simpa using boxed coarse
    · rename_i apart
      have stranger : other.key ≠ d.key := fun clash => apart (sound.alone found living (owner.trans clash.symm))
      rw [elsewhere stranger]
      exact records.cells j other living
  · have other : key ≠ d.key := by
      rintro rfl
      cases vacant.symm.trans there
    exact (elsewhere other).trans (records.absent key vacant)
  · rw [tenancies, List.mem_append, List.mem_map] at listed
    rcases listed with past | ⟨key, _, rfl⟩
    · exact records.headed installs (List.mem_append_left _ past)
    · have was := records.current_headed key
      by_cases same : key = d.key
      · subst same
        rw [here, before]
        exact was.push
      · exact elsewhere same ▸ was
  · have trade := change fun installs => (!installs.isEmpty).toNat
    have total : (t + t').firstInstalls = t.firstInstalls + t'.firstInstalls := rfl
    have either : (reg.current d.key).isEmpty.toNat + (!(reg.current d.key).isEmpty).toNat = 1 := by
      cases (reg.current d.key).isEmpty <;> rfl
    have full : (!(reg.current d.key ++ [d.initial]).isEmpty).toNat = 1 := by simp
    rw [total, counted, records.firsts, before]
    omega
  · have trade := change List.length
    have total : (t + t').installed = t.installed + t'.installed := rfl
    rw [List.length_append, List.length_singleton] at trade
    rw [total, one, records.installs]
    omega

theorem recount (records : reg.Records s t) (firsts : t'.firstInstalls = t.firstInstalls)
    (installs : t'.installed = t.installed) : reg.Records s t' :=
  ⟨records.cells, records.absent, records.headed, firsts.trans records.firsts, installs.trans records.installs⟩

/-- Nothing is entered for what brings no build. -/
theorem plain (records : reg.Records s t) (none : t'.firstInstalls = 0) (nothing : t'.installed = 0) :
    reg.Records s (t + t') :=
  records.recount (congrArg (t.firstInstalls + ·) none) (congrArg (t.installed + ·) nothing)

/-- Cells come without a build and go with the one that they have. -/
theorem turnOver (records : reg.Records s t) (sound : s.Sound) (kept : s'.Sound) (unbuilt : Unbuilt s s')
    (keeps : ∀ i slot, s'.live? i = some slot → s.contains slot.key = true → slot.Keeps s i) :
    (reg.turnOver s s').Records s' t := by
  refine ⟨fun i slot living => ?_, fun key vacant => ?_, fun installs listed => ?_,
    records.firsts.trans (turnOver_sum records.absent rfl).symm,
    records.installs.trans (turnOver_sum records.absent rfl).symm⟩
  · have here : (reg.turnOver s s').current slot.key = reg.current slot.key := if_pos (kept.contains_key living)
    rw [here]
    cases there : s.contains slot.key with
    | true =>
      have same := keeps i slot living there
      obtain ⟨old, before, owner, _⟩ := id same
      rw [same.isBare before, ← owner]
      exact records.cells i old before
    | false =>
      rw [records.absent _ there]
      refine (unbuilt i slot living).resolve_right fun earlier => ?_
      obtain ⟨old, before, owner, _⟩ := earlier
      rw [← owner, sound.contains_key before] at there
      cases there
  · exact if_neg (Bool.eq_false_iff.mp vacant)
  · rw [tenancies, List.mem_append, List.mem_map] at listed
    rcases listed with past | ⟨key, _, rfl⟩
    · rcases List.mem_append.mp past with before | departed
      · exact records.headed installs (List.mem_append_left _ before)
      · obtain ⟨key, _, rfl⟩ := List.mem_map.mp departed
        exact records.current_headed key
    · rw [Register.turnOver]
      dsimp only
      split
      · exact records.current_headed key
      · exact headed_nil

end Records

end Register

namespace Pipeline

open Ledger Register

variable [Simulation σ]

/-- Applying a command enters what it installs. -/
private theorem apply_records {l : Ledger σ} (told : l.Told) {command : Command} {commands : List Command}
    (taken : l.commands = command :: commands) (boxed : command.Boxed) {reg : Register} {t : Tally}
    (records : reg.Records l.store t) :
    (enterApply ⟨l.sim, l.store, []⟩ reg command).Records (Site.apply ⟨l.sim, l.store, []⟩ command).1.store
      (t + (Site.apply ⟨l.sim, l.store, []⟩ command).2) := by
  cases command with
  | install d =>
    obtain ⟨slot, found, stage, current⟩ := told.tracked.delivered taken
    have applied : Site.apply ⟨l.sim, l.store, []⟩ (.install d) = _ := install_current l.sim found stage current
    have said : (⟨d.claim, d.initial⟩ : Herald) ∈ l.heralds :=
      List.mem_append_right _ (List.mem_filterMap.mpr ⟨_, taken ▸ List.mem_cons_self, rfl⟩)
    rw [enterApply, applied, if_pos rfl]
    refine records.install told.tracked.carried.sound found (congrArg Claim.key current) (told.truly _ said slot found)
      (fun coarse => ?_) rfl rfl
    rw [place, if_neg (Bool.eq_false_iff.mp (boxed coarse))]
    rfl
  | remove key shape => exact records.plain rfl rfl
  | toggle key i enabled =>
    simp only [enterApply, Site.apply, Site.toggle]
    split
    · split <;> exact records.plain rfl rfl
    · exact records.plain rfl rfl

/-- A pipeline that builds by merging, with its register. -/
structure Registers (sane : ω → Prop) (p : Pipeline σ ω) (planner : Planner) (reg : Register) : Prop where
  merging : p.Merging sane planner [] []
  told : (p.ledger planner [] []).Told
  records : reg.Records p.store p.drained

namespace Registers

variable {sane : ω → Prop} {p : Pipeline σ ω} {planner : Planner} {reg : Register}

theorem drain [Supplier ω] (registers : p.Registers sane planner reg) (most : Nat) :
    (p.drain most).1.Registers sane planner (p.enter reg (.drain most)) := by
  have ⟨merging, told, records⟩ := registers
  have none : p.interludes.addition = [] := by rw [merging.intact.interludes]; rfl
  have start : enterDrain ⟨p.sim, p.store, []⟩ reg (p.commands.firsts most) = p.enter reg (.drain most) := by
    rw [enter, none]
  -- What has been applied so far has been entered, and entering the rest comes to what the whole drain enters.
  obtain ⟨_, _, tally, counted, reg', told, _, records, ended⟩ := drain_counts (K := fun taken tally l => ∃ reg',
    l.Told ∧ (∀ c ∈ l.commands, c.Boxed) ∧ reg'.Records l.store (p.drained + tally) ∧
      enterDrain ⟨l.sim, l.store, []⟩ reg' taken = p.enter reg (.drain most))
    (fun l command taken commands tally listed ⟨reg', told, boxed, records, entered⟩ => by
      obtain ⟨sim, store, applied, work⟩ := apply_work l listed
      have next := apply_records told listed (boxed command (listed ▸ List.mem_cons_self)) records
      rw [applied] at next
      rw [enterDrain, applied] at entered
      exact ⟨sim, store, _, Prod.ext applied rfl, _, told.work work,
        fun c member => boxed c (listed ▸ List.mem_cons_of_mem _ member),
        next.recount (Nat.add_assoc ..).symm (Nat.add_assoc ..).symm, entered⟩)
    merging.intact planner most ⟨reg, told, merging.boxed, records, start⟩
  rw [← ended]
  exact ⟨merging.drain most, told, counted ▸ records⟩

omit [Simulation σ] in
theorem pass (registers : p.Registers sane planner reg) (there : p.planner = some planner) :
    ∃ planner, p.pass.1.planner = some planner ∧ p.pass.1.Registers sane planner (reg.turnOver p.store p.pass.1.store) := by
  have ⟨merging, told, records⟩ := registers
  have sound : p.store.Sound := told.tracked.carried.sound
  have kept := merging.pass rfl
  have start : (ofDesk (p.desk planner) p.jobs p.sim).Told := told
  have told := acts_keep (J := Told) (fun _ _ act ready told => told.act act ready) (desk_acts p planner)
    merging.intact.commands start
  rw [pass_left there]
  refine ⟨_, rfl, kept, told, records.turnOver sound kept.tracked.carried.sound ?_ fun i slot living inside => ?_⟩
  · exact Desk.pass_unbuilt sound _ _
  · exact Desk.pass_keeps_builds sound _ _ living inside

/-- Between passes only drains install builds. -/
theorem other [Supplier ω] (wholesome : Wholesome sane) (registers : p.Registers sane planner reg) {m : Move ω}
    (passing : m ≠ .pass) (draining : ∀ most, m ≠ .drain most) (worlds : ∀ world, m = .world world → sane world) :
    (p.move m).Registers sane planner reg := by
  have ⟨merging, told, records⟩ := registers
  rcases move_deeds (c := .blank) (fun _ _ => True) merging.intact merging.tracked passing (.inl fun _ _ _ _ => trivial)
    with ⟨⟨most, drains⟩, _⟩ | ⟨_, errands⟩
  · exact absurd drains (draining most)
  · obtain ⟨told, records⟩ := errands.keep (K := fun j => j.ledger.Told ∧ reg.Records j.ledger.store p.drained)
      (fun j j' errand _ ⟨told, records⟩ => by
        have abandoned (i : Nat) (version : UInt32) : reg.Records (j.ledger.store.abandon i version).1 p.drained := by
          have outline := outline_abandon j.ledger.store i version
          exact records.inherits (inherits_outline outline) (congrArg (·.index) outline)
        cases errand with
        | hear => exact ⟨told, records⟩
        | excuse taken => exact ⟨told.work (.giveUp taken), abandoned _ _⟩
        | refuse taken => exact ⟨told.work (.giveUp taken), abandoned _ _⟩
        | accept taken added => exact ⟨told.work (.accept taken added), records⟩
        | build taken found stage current shape placeholder =>
          exact ⟨told.work (.build taken found stage current shape placeholder),
            records.inherits (inherits_put found rfl rfl rfl rfl) rfl⟩)
      merging.tracked ⟨told, records⟩
    exact ⟨merging.other wholesome passing worlds, told, p.move_drained draining ▸ records⟩

theorem run [Supplier ω] (wholesome : Wholesome sane) (registers : p.Registers sane planner reg)
    (there : p.planner = some planner) {moves : List (Move ω)} (worlds : ∀ world, .world world ∈ moves → sane world) :
    ∃ planner, (p.run moves).Registers sane planner (p.register reg moves) := by
  induction moves generalizing p planner reg with
  | nil => exact ⟨planner, registers⟩
  | cons m moves ih =>
    have later : ∀ world, .world world ∈ moves → sane world := fun world listed => worlds world (List.mem_cons_of_mem _ listed)
    by_cases passing : m = .pass
    · subst m
      obtain ⟨next, still, kept⟩ := registers.pass there
      exact ih kept still later
    · obtain ⟨_, same, _⟩ := move_works registers.merging.intact planner passing
      suffices registers : (p.move m).Registers sane planner (p.enter reg m) from ih registers (same.trans there) later
      by_cases draining : ∃ most, m = .drain most
      · obtain ⟨most, rfl⟩ := draining
        exact registers.drain most
      · have entered : p.enter reg m = reg := by
          cases m with
          | pass => exact absurd rfl passing
          | drain most => exact absurd ⟨most, rfl⟩ draining
          | _ => rfl
        rw [entered]
        exact registers.other wholesome passing (fun most same => draining ⟨most, same⟩)
          fun world same => worlds world (same ▸ List.mem_cons_self)

end Registers

omit [Simulation σ] in
theorem new_registers {sane : ω → Prop} (grid : Grid) (initial most : Nat) (pacing : Pacing) (margins : Margins)
    (limit : Nat) {world : ω} (begins : sane world) (sim : σ) :
    (new grid (Store.ofLimits initial most) pacing margins (merge limit) world sim).Registers sane
      (Planner.new grid pacing margins) .blank := by
  have merging := new_merging grid initial most pacing margins limit begins sim
  exact ⟨merging, ⟨merging.tracked, fun _ said => (nomatch said)⟩, blank_records initial most⟩

variable [Supplier ω]

/-- In every state that a run comes to, the first build that was installed in the tenancy of a cell went in as a first
one, and none after it did. So the first builds that drains have counted are as many as the tenancies in which a build
was installed, and all the builds that they counted are in the register. Passes may fail, and claims may be given up,
retried, raised and replaced. -/
theorem first_installs_count_tenancies (grid : Grid) (initial most : Nat) (pacing : Pacing) (margins : Margins)
    (limit : Nat) (world : ω) (sim : σ) {sane : ω → Prop} (wholesome : Wholesome sane) (begins : sane world)
    (moves : List (Move ω)) (worlds : ∀ world, .world world ∈ moves → sane world) :
    let start := new grid (Store.ofLimits initial most) pacing margins (merge limit) world sim
    let p := start.run moves
    let tenancies := (start.register .blank moves).tenancies p.store
    (∀ installs ∈ tenancies, ∀ n first, installs[n]? = some first → (first = true ↔ n = 0)) ∧
    p.drained.firstInstalls = tenancies.countP (!·.isEmpty) ∧
    p.drained.installed = (tenancies.map List.length).sum := by
  intro start p tenancies
  have begun := new_registers grid initial most pacing margins limit begins sim
  obtain ⟨planner, registers⟩ := begun.run wholesome rfl worlds
  have ⟨_, _, headed, firsts, installs⟩ := registers.records
  exact ⟨headed, firsts.trans (sum_toNat _ _), installs⟩

/-- A cell is built in full and then, after an edit, coarsely. It is removed, comes back, and is built for the first
time once more. -/
theorem first_installs_count_tenancies_anew :
    let ground : Ground := .ofTerrain (.floor ⟨Grid.ofSize 2, 1, ∅⟩)
    let moves : List (Move Ground) := [.send (.requested ⟨0⟩), .pass, .supply 1, .drain 1,
      .world (ground.set ⟨1, 0, 1⟩ ⟨0⟩), .send (.voxelEdited ⟨1, 0, 1⟩), .pass, .supply 1, .drain 1,
      .send (.released ⟨0⟩), .pass, .pass, .drain 1, .send (.requested ⟨0⟩), .pass, .supply 1, .drain 1]
    let start := new (Grid.ofSize 2) (Store.ofLimits 1 1) Pacing.standard Margins.standard (merge 1) ground Scene.empty
    let p := start.run moves
    (start.register .blank moves).tenancies p.store = [[true, false], [true]] ∧
    p.drained.firstInstalls = 2 ∧ p.drained.installed = 3 := by
  intro ground moves start p
  have look : (start.register .blank moves).tenancies p.store = [[true, false], [true]] := by decide +kernel
  have fits : 0 < ground.grid.size ∧ ground.grid.size ≤ 65535 := by decide
  have worlds : ∀ world, .world world ∈ moves → 0 < world.grid.size ∧ world.grid.size ≤ 65535 := by
    simp only [moves, List.mem_cons, List.not_mem_nil, reduceCtorEq, or_false, false_or, Move.world.injEq]
    rintro _ rfl
    exact fits
  obtain ⟨_, firsts, installs⟩ := first_installs_count_tenancies (Grid.ofSize 2) 1 1 Pacing.standard Margins.standard 1
    ground Scene.empty Ground.wholesome fits moves worlds
  -- The states are named before they are compared, lest they be computed.
  generalize ended : p = last at look ⊢
  generalize kept : (start.register .blank moves).tenancies last.store = tenancies at look ⊢
  simp only [p, start] at ended kept
  rw [ended, kept, look] at firsts installs
  exact ⟨look, firsts, installs⟩

end Pipeline

end TerrainStream
