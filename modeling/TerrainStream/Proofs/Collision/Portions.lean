import Mathlib.Algebra.BigOperators.Group.List.Basic
import Mathlib.Algebra.Ring.Nat
import TerrainStream.Physics.Scene
import TerrainStream.Proofs.Exchange.Mailbox
import TerrainStream.Proofs.Store.History

/-! A queue drained in portions. However a drain is cut up, the same commands are applied in the same order, and what
the portions come to adds up to what the whole comes to. -/

namespace TerrainStream

open Collision

instance : Zero Tally := ⟨Tally.zero⟩

/-- Tallies add up in any order. -/
instance : AddCommMonoid Tally where
  add_assoc t u v := by
    change Tally.add (Tally.add t u) v = Tally.add t (Tally.add u v)
    simp [Tally.add, Nat.add_assoc]
  zero_add t := by
    change Tally.add Tally.zero t = t
    simp [Tally.add, Tally.zero]
  add_zero t := by
    change Tally.add t Tally.zero = t
    simp [Tally.add, Tally.zero]
  add_comm t u := by
    change Tally.add t u = Tally.add u t
    simp [Tally.add, Nat.add_comm]
  nsmul := nsmulRec

namespace Collision

/-- The installs that were tried, whether their build went in or not. -/
def Tally.tried (t : Tally) : Nat := t.installed + t.stale

theorem Tally.tried_add (t u : Tally) : (t + u).tried = t.tried + u.tried := by
  change (t.installed + u.installed) + (t.stale + u.stale) = (t.installed + t.stale) + (u.installed + u.stale)
  omega

theorem Tally.removed_add (t u : Tally) : (t + u).removed = t.removed + u.removed := rfl

def Command.isInstall : Command → Bool
  | .install _ => true
  | _ => false

def Command.isRemove : Command → Bool
  | .remove _ _ => true
  | _ => false

namespace Site

variable {σ : Type} [Simulation σ] {site site' site'' : Site σ} {command : Command} {commands later : List Command}
  {tally tally' : Tally}

private theorem commit_counts (site : Site σ) (d : Delivery) (shape : Option Store.Handle) :
    (site.commit d shape).2.tried = 1 ∧ (site.commit d shape).2.removed = 0 := by
  unfold commit
  split <;> exact ⟨rfl, rfl⟩

/-- An install counts as installed or as stale, and no other command does; a removal always counts. -/
theorem apply_counts (site : Site σ) (command : Command) :
    (site.apply command).2.tried = command.isInstall.toNat ∧ (site.apply command).2.removed = command.isRemove.toNat := by
  cases command with
  | install d =>
    change (site.install d).2.tried = 1 ∧ (site.install d).2.removed = 0
    unfold install
    split
    · exact ⟨rfl, rfl⟩
    · split
      · exact commit_counts site d none
      · exact commit_counts _ d _
  | remove key shape => exact ⟨rfl, rfl⟩
  | toggle key i enabled =>
    change (site.toggle key i enabled).2.tried = 0 ∧ (site.toggle key i enabled).2.removed = 0
    unfold toggle
    split
    · split <;> exact ⟨rfl, rfl⟩
    · exact ⟨rfl, rfl⟩

/-- Commands applied one after the other, and what they come to together. -/
inductive Applied : Site σ → List Command → Site σ → Tally → Prop
  | nothing (site : Site σ) : Applied site [] site 0
  | next {site site' : Site σ} {command : Command} {commands : List Command} {tally : Tally}
      (rest : Applied (site.apply command).1 commands site' tally) :
      Applied site (command :: commands) site' ((site.apply command).2 + tally)

theorem applied_fold (commands : List Command) (site : Site σ) (sum : Tally) : ∃ site' tally,
    commands.foldl (fun (site, tally) c => let (site, t) := site.apply c; (site, tally + t)) (site, sum) =
      (site', sum + tally) ∧ Applied site commands site' tally := by
  induction commands generalizing site sum with
  | nil => exact ⟨site, 0, by rw [add_zero]; rfl, .nothing site⟩
  | cons command rest ih =>
    obtain ⟨site', tally, folded, applied⟩ := ih (site.apply command).1 (sum + (site.apply command).2)
    exact ⟨site', _, folded.trans (by rw [add_assoc]), .next applied⟩

theorem applyAll_applied (site : Site σ) (commands : List Command) :
    Applied site commands (site.applyAll commands).1 (site.applyAll commands).2 := by
  obtain ⟨site', tally, folded, applied⟩ := applied_fold commands site Tally.zero
  have start : Tally.zero + tally = tally := zero_add tally
  rw [applyAll, folded, start]
  exact applied

theorem Applied.unique (first : Applied site commands site' tally) {other : Site σ}
    (second : Applied site commands other tally') : site' = other ∧ tally = tally' := by
  induction first generalizing other tally' with
  | nothing site =>
    cases second
    exact ⟨rfl, rfl⟩
  | next _ ih =>
    cases second with
    | next rest =>
      obtain ⟨rfl, rfl⟩ := ih rest
      exact ⟨rfl, rfl⟩

theorem Applied.append (first : Applied site commands site' tally) (second : Applied site' later site'' tally') :
    Applied site (commands ++ later) site'' (tally + tally') := by
  induction first with
  | nothing site =>
    rw [zero_add]
    exact second
  | next _ ih =>
    rw [add_assoc]
    exact .next (ih second)

theorem Applied.counts (applied : Applied site commands site' tally) :
    tally.tried = commands.countP Command.isInstall ∧ tally.removed = commands.countP Command.isRemove := by
  have counted (command : Command) (rest : Nat) (flag : Bool) : flag.toNat + rest = rest + if flag then 1 else 0 := by
    cases flag
    · exact Nat.zero_add rest
    · exact Nat.add_comm 1 rest
  induction applied with
  | nothing site => exact ⟨rfl, rfl⟩
  | @next site _ command commands tally _ ih =>
    obtain ⟨tried, removed⟩ := apply_counts site command
    rw [Tally.tried_add, Tally.removed_add, tried, removed, ih.1, ih.2, List.countP_cons, List.countP_cons]
    exact ⟨counted command _ _, counted command _ _⟩

theorem drain_applied (site : Site σ) (queue : Mailbox Command) (most : Nat) :
    Applied site (queue.firsts most) (site.drain queue most).1 (site.drain queue most).2.2 :=
  applyAll_applied site (queue.firsts most)

/-- Two drains one after the other are a drain bounded by the sum of their bounds. -/
theorem drain_add (site : Site σ) (queue : Mailbox Command) (first second : Nat) :
    let once := site.drain queue first
    let twice := once.1.drain once.2.1 second
    site.drain queue (first + second) = (twice.1, twice.2.1, once.2.2 + twice.2.2) := by
  intro once twice
  have whole := site.drain_applied queue (first + second)
  rw [queue.firsts_add first second] at whole
  obtain ⟨same, sum⟩ := whole.unique ((site.drain_applied queue first).append (once.1.drain_applied once.2.1 second))
  exact Prod.ext same (Prod.ext (queue.rest_rest first second).symm sum)

/-- Drains in turn, one for each bound, with the sum of what they come to. -/
def drainEach (site : Site σ) (queue : Mailbox Command) (bounds : List Nat) : Site σ × Mailbox Command × Tally :=
  bounds.foldl
    (fun (site, queue, sum) most => let (site, queue, tally) := site.drain queue most; (site, queue, sum + tally))
    (site, queue, Tally.zero)

theorem drainEach_fold (bounds : List Nat) (site : Site σ) (queue : Mailbox Command) (sum : Tally) :
    bounds.foldl
      (fun (site, queue, sum) most => let (site, queue, tally) := site.drain queue most; (site, queue, sum + tally))
      (site, queue, sum) =
      ((site.drain queue bounds.sum).1, (site.drain queue bounds.sum).2.1, sum + (site.drain queue bounds.sum).2.2) := by
  induction bounds generalizing site queue sum with
  | nil =>
    obtain ⟨same, none⟩ := (site.drain_applied queue 0).unique (.nothing site)
    have unchanged : sum = sum + (site.drain queue 0).2.2 := by rw [none, add_zero]
    exact Prod.ext same.symm (Prod.ext queue.rest_zero.symm unchanged)
  | cons most bounds ih =>
    rw [List.foldl_cons, List.sum_cons, drain_add, ih, ← add_assoc]

theorem drainEach_eq (site : Site σ) (queue : Mailbox Command) (bounds : List Nat) :
    site.drainEach queue bounds = site.drain queue bounds.sum := by
  have start : Tally.zero + (site.drain queue bounds.sum).2.2 = (site.drain queue bounds.sum).2.2 := zero_add _
  rw [drainEach, drainEach_fold, start]

/-- Drains in turn whose bounds add up to the length of the queue, or to more, come to the same site, the same empty
queue and the same tally as one drain of the whole. A drain applies the first commands up to its bound, in the order of
their arrival, and keeps the others; each install among them counts as installed or as stale, and each removal as
removed. -/
theorem drains_in_portions_add_up (site : Site σ) (queue : Mailbox Command) :
    (∀ (bounds : List Nat) (all : Nat), queue.size ≤ bounds.sum → queue.size ≤ all →
      site.drainEach queue bounds = site.drain queue all ∧ (site.drain queue all).2.1 = queue.emptied ∧
      Applied site queue.letters.toList (site.drain queue all).1 (site.drain queue all).2.2) ∧
    ∀ most : Nat, ∃ taken kept, queue.letters.toList = taken ++ kept ∧ taken.length = min most queue.size ∧
      (site.drain queue most).2.1 = { queue with letters := kept.toArray } ∧
      Applied site taken (site.drain queue most).1 (site.drain queue most).2.2 ∧
      (site.drain queue most).2.2.installed + (site.drain queue most).2.2.stale = taken.countP Command.isInstall ∧
      (site.drain queue most).2.2.removed = taken.countP Command.isRemove := by
  refine ⟨fun bounds all enough beyond => ?_, fun most => ?_⟩
  · have whole (most : Nat) (beyond : queue.size ≤ most) :
        Applied site queue.letters.toList (site.drain queue most).1 (site.drain queue most).2.2 := by
      rw [← Mailbox.firsts_beyond beyond]
      exact site.drain_applied queue most
    obtain ⟨same, sum⟩ := (whole bounds.sum enough).unique (whole all beyond)
    have emptied (most : Nat) (beyond : queue.size ≤ most) : (site.drain queue most).2.1 = queue.emptied :=
      Mailbox.rest_beyond beyond
    refine ⟨?_, emptied all beyond, whole all beyond⟩
    rw [drainEach_eq]
    exact Prod.ext same (Prod.ext ((emptied _ enough).trans (emptied all beyond).symm) sum)
  · have applied := site.drain_applied queue most
    refine ⟨queue.firsts most, (queue.rest most).letters.toList, (queue.firsts_rest most).symm, ?_, rfl, applied,
      applied.counts⟩
    rw [Mailbox.firsts, List.length_take, Array.length_toList, Mailbox.size]

/-- A build goes in, another of a claim that is gone does not, the cell is switched on, and a shape is taken out: drained
one at first, none then, and the others in two portions. -/
theorem drains_in_portions_add_up_four :
    let store := (Store.ofLimits 1 1).after [.add ⟨1⟩, .schedule 0, .begin 0 1]
    let slab : Shape := ⟨⟨0, 0, 0⟩, 2, #[⟨⟨0, 0, 0⟩, ⟨2, 1, 2⟩⟩]⟩
    let site : Site Physics.Scene := ⟨Physics.Scene.empty, store, []⟩
    let queue : Mailbox Command := ⟨#[.install ⟨⟨1⟩, 0, 1, slab, false, true⟩, .install ⟨⟨1⟩, 0, 1, slab, true, false⟩,
      .toggle ⟨1⟩ 0 true, .remove ⟨1⟩ ⟨1⟩], true⟩
    (queue.size ≤ [1, 0, 2, 9].sum ∧ queue.size ≤ 4) ∧
      site.drainEach queue [1, 0, 2, 9] = site.drain queue 4 ∧
      (site.drain queue 4).2 = (⟨#[], true⟩, ⟨1, 1, 0, 0, 1, 1, 1⟩) := by
  intro store slab site queue
  have enough : queue.size ≤ [1, 0, 2, 9].sum := by decide
  have beyond : queue.size ≤ 4 := by decide
  obtain ⟨same, emptied, _⟩ := (drains_in_portions_add_up site queue).1 [1, 0, 2, 9] 4 enough beyond
  exact ⟨⟨enough, beyond⟩, same, Prod.ext emptied (by decide +kernel)⟩

end Site

end Collision

end TerrainStream
