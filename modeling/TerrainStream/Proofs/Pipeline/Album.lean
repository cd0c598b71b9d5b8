import TerrainStream.Proofs.Pipeline.Carriers
import TerrainStream.Proofs.Pipeline.Shapes
import TerrainStream.Proofs.Shape.Covering

/-! Which snapshot a build comes from. An album follows every snapshot from the moment that it is taken into the
build of its cell, and what the simulation was given for the cell shows that snapshot. -/

namespace TerrainStream

open Cell Store Shape Collision Build Residency Physics World

variable {σ ω : Type}

structure Album where
  /-- The snapshot that was last taken for a claim. -/
  taken : Claim → Option Snapshot
  /-- Whether a cell has had a build completed since it entered the store. -/
  complete : Key → Bool
  /-- The snapshot that was taken for the last build of a cell. -/
  built : Key → Option Snapshot

namespace Album

def blank : Album := ⟨fun _ => none, fun _ => false, fun _ => none⟩

/-- A snapshot is taken for a claim. -/
def snap (a : Album) (claim : Claim) (s : Snapshot) : Album :=
  { a with taken := fun other => if other = claim then some s else a.taken other }

/-- The build for a claim is installed. -/
def install (a : Album) (claim : Claim) : Album :=
  { a with
    complete := fun key => if key = claim.key then true else a.complete key
    built := fun key => if key = claim.key then a.taken claim else a.built key }

/-- Cells that have left have to start over. -/
def forget (a : Album) (s : Store) : Album := { a with complete := fun key => s.contains key && a.complete key }

end Album

namespace Pipeline

/-- A request that the world supplies puts its snapshot into the album. -/
def pasteServe [Supplier ω] (p : Pipeline σ ω) (a : Album) (r : Request) : Album :=
  if (p.serve r).2.taken = 1 then (Supplier.snapshot p.world r.key).2.toOption.elim a (a.snap r.claim) else a

def pasteSupply [Supplier ω] (p : Pipeline σ ω) (a : Album) : List Request → Album
  | [] => a
  | r :: rest => pasteSupply (p.serve r).1 (p.pasteServe a r) rest

/-- A delivery that is not turned away is the cell's last build from then on. -/
def pasteApply [Simulation σ] (site : Site σ) (a : Album) : Command → Album
  | .install d => if (site.apply (.install d)).2.installed = 1 then a.install d.claim else a
  | _ => a

def pasteDrain [Simulation σ] (site : Site σ) (a : Album) : List Command → Album
  | [] => a
  | command :: rest => pasteDrain (site.apply command).1 (pasteApply site a command) rest

variable [Simulation σ] [Supplier ω]

/-- A pass removes cells only when it has let in those that it lets in, so what is there in the end has stayed. -/
def paste (p : Pipeline σ ω) (a : Album) : Move ω → Album
  | .pass => a.forget p.pass.1.store
  | .supply most => pasteSupply { p with requests := p.requests.rest most } a (p.requests.firsts most)
  | .drain most => pasteDrain ⟨p.sim, p.store, p.interludes.addition⟩ a (p.commands.firsts most)
  | _ => a

/-- The album after some moves. -/
def album (p : Pipeline σ ω) (a : Album) : List (Move ω) → Album
  | [] => a
  | m :: rest => album (p.move m) (p.paste a m) rest

end Pipeline

/-- Whether a cell shows a snapshot: the shape under its handle does, or it has no handle and a shape without boxes
would. -/
def Store.Slot.Shows (given : Handle → Option Shape) (slot : Slot) (s : Snapshot) : Prop :=
  ∃ shape, Shape.Shows s shape slot.placeholder ∧ (slot.shape = none ∧ shape.isEmpty = true ∨
    ∃ handle, slot.shape = some handle ∧ given handle = some shape ∧ shape.isEmpty = false)

theorem Collision.Archive.mirrors [Simulation σ] : Mirrors (Archive.sim : Archive σ → σ) where
  add _ _ _ _ := rfl
  remove _ _ := rfl
  enable _ _ _ := rfl

namespace Ledger

variable [Simulation σ] [Accountable σ]

/-- Every job and every delivery comes from the snapshot that was taken for its claim, and every cell shows the one
that its last build comes from. -/
structure Hung (l : Ledger (Archive σ)) (a : Album) : Prop where
  tracked : l.Tracked
  owned : l.Owned
  jobs : ∀ job ∈ l.jobs, job.snapshot.Whole ∧ a.taken job.claim = some job.snapshot
  builds : ∀ d, .install d ∈ l.commands → ∃ s, a.taken d.claim = some s ∧ Shape.Shows s d.shape d.placeholder
  cells : ∀ i slot, l.store.live? i = some slot → a.complete slot.key = true →
    ∃ s, a.built slot.key = some s ∧ slot.Shows l.sim.given s
  present : ∀ key, a.complete key = true → l.store.contains key = true

/-- What is placed goes under another handle than what is held. -/
theorem place_given {sim : Archive σ} (valid : Accountable.proper sim) {handle : Handle}
    (held : handle ∈ Accountable.handles sim) (d : Delivery) (enabled : Bool) :
    (place sim d enabled).2.given handle = sim.given handle := by
  unfold place
  split
  · rfl
  · exact Archive.given_held valid held d.key d.shape enabled

omit [Accountable σ] in
theorem place_gives {sim : Archive σ} {d : Delivery} {enabled : Bool} {handle : Handle}
    (placed : (place sim d enabled).1 = some handle) : (place sim d enabled).2.given handle = some d.shape := by
  unfold place at placed ⊢
  split at placed
  · cases placed
  · rename_i full
    rw [if_neg full]
    cases placed
    exact if_pos rfl

namespace Hung

variable {l : Ledger (Archive σ)} {a : Album}

/-- A cell goes on showing what it shows while only its stage changes. -/
private theorem cells_stage (hung : l.Hung a) {i : Nat} {slot : Slot} (found : l.store.live? i = some slot)
    (stage : Stage) : ∀ j other, (l.store.put i { slot with stage }).live? j = some other → a.complete other.key = true →
      ∃ s, a.built other.key = some s ∧ other.Shows l.sim.given s := by
  intro j other living done
  rw [live?_put found (show ({ slot with stage } : Slot).live = slot.live from rfl)] at living
  split at living
  · cases living
    exact hung.cells i slot found done
  · exact hung.cells j other living done

/-- Nothing depends on the order of the jobs. -/
theorem perm (hung : l.Hung a) {jobs : List Job} (same : jobs.Perm l.jobs) : Hung { l with jobs } a := by
  have ⟨⟨keyed, carried⟩, ⟨sound, proper, held, once⟩, taken, builds, cells, present⟩ := hung
  refine ⟨⟨keyed, carried.perm ?_⟩, ⟨sound, proper, held, once⟩, fun job listed => taken job (same.mem_iff.mp listed),
    builds, cells, present⟩
  exact (same.map (·.claim)).append_left _

theorem giveUp (hung : l.Hung a) {r : Request} {waiting : List Request} (taken : l.waiting = r :: waiting) :
    Hung { l with waiting, store := (l.store.abandon r.index r.version).1 } a := by
  have tracked := hung.tracked.work (.giveUp taken)
  have owned := hung.owned.after (.giveUp taken)
  rcases abandon_cases l.store r.index r.version with ⟨slot, found, _, _, given⟩ | kept
  · rw [given] at tracked owned ⊢
    exact ⟨tracked, owned, hung.jobs, hung.builds, hung.cells_stage found slot.fallback, hung.present⟩
  · rw [kept] at tracked owned ⊢
    exact ⟨tracked, owned, hung.jobs, hung.builds, hung.cells, hung.present⟩

theorem accept (hung : l.Hung a) {r : Request} {waiting : List Request} {jobs : List Job} {snapshot : Snapshot}
    (taken : l.waiting = r :: waiting)
    (added : jobs.Perm (⟨r.key, r.index, r.version, r.initial, snapshot⟩ :: l.jobs)) (whole : snapshot.Whole) :
    Hung { l with waiting, jobs } (a.snap r.claim snapshot) := by
  have once := hung.tracked.carried.once
  have member := mem_waits_next taken
  have others {c : Claim} (different : c ≠ r.claim) : (a.snap r.claim snapshot).taken c = a.taken c := if_neg different
  refine ⟨hung.tracked.work (.accept taken added), hung.owned.after (.accept taken added),
    fun job listed => ?_, fun d queued => ?_, hung.cells, hung.present⟩
  · rcases List.mem_cons.mp (added.mem_iff.mp listed) with rfl | listed
    · exact ⟨whole, if_pos rfl⟩
    · obtain ⟨fit, same⟩ := hung.jobs job listed
      refine ⟨fit, (others fun clash => ?_).trans same⟩
      have apart := (List.nodup_append.mp once).2.2 r.claim
        (List.mem_map_of_mem (List.mem_append_right _ (taken ▸ List.mem_cons_self)))
      exact apart job.claim (List.mem_map_of_mem listed) clash.symm
  · obtain ⟨s, same, shows⟩ := hung.builds d queued
    refine ⟨s, (others fun clash => ?_).trans same, shows⟩
    exact hung.tracked.carried.waits_apart member (clash ▸ List.mem_filterMap.mpr ⟨_, queued, rfl⟩)

theorem build (hung : l.Hung a) {job : Job} {jobs : List Job} {slot : Slot} (taken : l.jobs.Perm (job :: jobs))
    (found : l.store.live? job.index = some slot) (stage : slot.stage = .scheduled)
    (current : slot.claim job.index = job.claim) {shape : Shape} {placeholder : Bool}
    (shows : job.snapshot.Whole → Shape.Shows job.snapshot shape placeholder) :
    Hung { l with
      jobs
      store := l.store.put job.index { slot with stage := .generating }
      commands := l.commands ++ [.install ⟨job.key, job.index, job.version, shape, placeholder, job.initial⟩] } a := by
  have work := Work.build taken found stage current shape placeholder
  have listed (other : Job) (member : other ∈ job :: jobs) : other ∈ l.jobs := taken.mem_iff.mpr member
  refine ⟨hung.tracked.work work, hung.owned.after work,
    fun other member => hung.jobs other (listed other (List.mem_cons_of_mem _ member)), fun d queued => ?_,
    hung.cells_stage found .generating, hung.present⟩
  rcases List.mem_append.mp queued with old | fresh
  · exact hung.builds d old
  · obtain ⟨whole, same⟩ := hung.jobs job (listed job List.mem_cons_self)
    cases List.mem_singleton.mp fresh
    exact ⟨job.snapshot, same, shows whole⟩

/-- A command that is not an install gives the simulation nothing and leaves the store to itself. -/
theorem other (hung : l.Hung a) {c : Command} {commands : List Command} {sim : Archive σ}
    (taken : l.commands = c :: commands) (same : sim.given = l.sim.given) (work : Work l { l with commands, sim }) :
    Hung { l with commands, sim } a := by
  refine ⟨hung.tracked.work work, hung.owned.after work, hung.jobs,
    fun d queued => hung.builds d (taken ▸ List.mem_cons_of_mem _ queued), ?_, hung.present⟩
  rw [same]
  exact hung.cells

omit [Accountable σ] in
/-- What is placed for a cell shows what it was made from. -/
private theorem place_shows (sim : Archive σ) {slot : Slot} {d : Delivery} {s : Snapshot}
    (shows : Shape.Shows s d.shape d.placeholder) :
    ({ slot with shape := (place sim d slot.active).1, placeholder := d.placeholder, stage := .ready } : Slot).Shows
      (place sim d slot.active).2.given s := by
  refine ⟨d.shape, shows, ?_⟩
  unfold place
  cases bare : d.shape.isEmpty with
  | true => exact .inl ⟨rfl, rfl⟩
  | false => exact .inr ⟨_, rfl, if_pos rfl, rfl⟩

/-- What is placed for one cell goes under another handle than those of the others. -/
private theorem place_others (hung : l.Hung a) (d : Delivery) (enabled : Bool) {i : Nat} {slot : Slot}
    (living : l.store.live? i = some slot) {s : Snapshot} (shows : slot.Shows l.sim.given s) :
    slot.Shows (place l.sim d enabled).2.given s := by
  obtain ⟨shape, made, look⟩ := shows
  refine ⟨shape, made, look.imp_right ?_⟩
  rintro ⟨handle, owns, given, full⟩
  exact ⟨handle, owns, (place_given hung.owned.proper (hung.owned.has living owns) d enabled).trans given, full⟩

theorem install (hung : l.Hung a) {d : Delivery} {commands : List Command} {slot : Slot}
    (taken : l.commands = .install d :: commands) (found : l.store.live? d.index = some slot)
    (stage : slot.stage = .generating) (current : slot.claim d.index = d.claim) :
    Hung { l with
      commands
      store := l.store.put d.index
        { slot with shape := (place l.sim d slot.active).1, placeholder := d.placeholder, stage := .ready }
      sim := slot.shape.elim (place l.sim d slot.active).2
        (Simulation.removeShape (place l.sim d slot.active).2) } (a.install d.claim) := by
  have work := Work.install taken found stage current
  have owner : slot.key = d.claim.key := congrArg Claim.key current
  obtain ⟨s, same, shows⟩ := hung.builds d (taken ▸ List.mem_cons_self)
  refine ⟨hung.tracked.work work, hung.owned.after work, hung.jobs,
    fun d queued => hung.builds d (taken ▸ List.mem_cons_of_mem _ queued), ?_, ?_⟩
  · intro i other living done
    have kept : ({ slot with shape := (place l.sim d slot.active).1, placeholder := d.placeholder, stage := .ready } :
      Slot).live = slot.live := rfl
    dsimp only at living ⊢
    rw [live?_put found kept] at living
    rw [Archive.given_discard]
    split at living
    · cases living
      exact ⟨s, (if_pos owner).trans same, place_shows l.sim shows⟩
    · rename_i elsewhere
      have stranger : other.key ≠ d.claim.key := fun clash =>
        elsewhere (hung.tracked.carried.sound.alone found living (owner.trans clash.symm))
      obtain ⟨s, same, shows⟩ := hung.cells i other living ((if_neg stranger).symm.trans done)
      exact ⟨s, (if_neg stranger).trans same, hung.place_others d slot.active living shows⟩
  · intro key done
    by_cases here : key = d.claim.key
    · have indexed := hung.tracked.carried.sound.indexed found
      rw [owner, ← here] at indexed
      exact contains_of_indexed indexed
    · exact hung.present key ((if_neg here).symm.trans done)

end Hung

end Ledger

end TerrainStream
