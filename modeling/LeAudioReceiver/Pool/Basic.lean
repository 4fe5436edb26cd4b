import Mathlib.Data.Fintype.Card
import Mathlib.Logic.Function.Basic
import Mathlib.Tactic.Common

/-!
# Pools of blocks

A pool has a fixed set of blocks, each free, in the hands of a caller, or in those of a driver.
A caller allocates a block, and frees it or submits it to the driver; the driver gives its blocks
back one by one or all at once.  A block that is freed or submitted by someone who does not hold it
leaves a mark.

* `Pool.Holds p bs` : the pool is unmarked and the callers hold exactly the blocks `bs`;
* `Pool.Holds.alloc`, `Pool.Holds.free`, `Pool.Holds.submit`, `Pool.Holds.complete`,
  `Pool.Holds.purge` : what each operation does to what is held.
-/

namespace LeAudioReceiver

/-- Who has a block. -/
inductive Owner where
  | free
  | caller
  | driver
  deriving DecidableEq, Repr

/-- A pool of blocks `β`. -/
structure Pool (β : Type*) where
  owner : β → Owner
  /-- A block was freed or submitted that its user did not hold. -/
  misused : Bool

namespace Pool

variable {β : Type*} [DecidableEq β] (p : Pool β)

/-- All blocks are free. -/
def init : Pool β := ⟨fun _ => .free, false⟩

/-- A caller takes a free block. -/
def alloc (b : β) : Option (Pool β) :=
  if p.owner b = .free then some { p with owner := Function.update p.owner b .caller } else none

/-- A caller gives a block back. -/
def free (b : β) : Pool β :=
  { owner := Function.update p.owner b .free, misused := p.misused || p.owner b != .caller }

/-- A caller hands a block to the driver. -/
def submit (b : β) : Pool β :=
  { owner := Function.update p.owner b .driver, misused := p.misused || p.owner b != .caller }

/-- The driver gives a block back. -/
def complete (b : β) : Option (Pool β) :=
  if p.owner b = .driver then some { p with owner := Function.update p.owner b .free } else none

/-- The driver gives all its blocks back. -/
def purge : Pool β :=
  { p with owner := fun b => if p.owner b = .driver then .free else p.owner b }

/-- The number of free blocks. -/
def numFree [Fintype β] : ℕ := Fintype.card {b // p.owner b = .free}

/-- Nothing was misused, and the callers hold exactly the blocks `bs`. -/
structure Holds (bs : List β) : Prop where
  misused : p.misused = false
  owner : ∀ b, p.owner b = .caller ↔ b ∈ bs
  nodup : bs.Nodup

variable {p} {p' : Pool β} {b : β} {bs : List β}

omit [DecidableEq β] in
theorem holds_init : (init : Pool β).Holds [] :=
  ⟨rfl, fun b => by simp [init], List.nodup_nil⟩

omit [DecidableEq β] in
/-- When no caller holds a block, each of them is free or with the driver. -/
theorem Holds.free_or_driver (h : p.Holds []) (b : β) :
    p.owner b = .free ∨ p.owner b = .driver := by
  cases hb : p.owner b with
  | free => exact .inl rfl
  | driver => exact .inr rfl
  | caller => exact absurd ((h.owner b).1 hb) List.not_mem_nil

theorem Holds.update (h : p.Holds bs) {bs' : List β} (hbs : bs'.Nodup) {o : Owner}
    (ho : o = .caller ↔ b ∈ bs') (hne : ∀ c, c ≠ b → (c ∈ bs ↔ c ∈ bs')) {m : Bool}
    (hm : m = false) : Holds ⟨Function.update p.owner b o, m⟩ bs' := by
  refine ⟨hm, fun c => ?_, hbs⟩
  by_cases hc : c = b
  · subst hc
    show Function.update p.owner c o c = .caller ↔ c ∈ bs'
    rw [Function.update_self]
    exact ho
  · show Function.update p.owner b o c = .caller ↔ c ∈ bs'
    rw [Function.update_of_ne hc, h.owner c]
    exact hne c hc

theorem Holds.alloc (h : p.Holds bs) (halloc : p.alloc b = some p') : p'.Holds (b :: bs) := by
  rw [Pool.alloc] at halloc
  split_ifs at halloc with hfree
  obtain rfl := Option.some.inj halloc
  have hb : b ∉ bs := by
    rw [← h.owner b, hfree]
    exact Owner.noConfusion
  refine h.update (List.nodup_cons.2 ⟨hb, h.nodup⟩) (by simp) (fun c hc => ?_) h.misused
  simp [hc]

theorem Holds.tail (h : p.Holds (b :: bs)) {o : Owner} (ho : o ≠ .caller) :
    Holds ⟨Function.update p.owner b o, p.misused || p.owner b != .caller⟩ bs := by
  obtain ⟨hb, hbs⟩ := List.nodup_cons.1 h.nodup
  have howner : p.owner b = .caller := (h.owner b).2 List.mem_cons_self
  refine h.update hbs (iff_of_false ho hb) (fun c hc => by simp [hc]) ?_
  rw [h.misused, howner]
  rfl

theorem Holds.free (h : p.Holds (b :: bs)) : (p.free b).Holds bs :=
  h.tail Owner.noConfusion

theorem Holds.submit (h : p.Holds (b :: bs)) : (p.submit b).Holds bs :=
  h.tail Owner.noConfusion

theorem Holds.complete (h : p.Holds bs) (hcomplete : p.complete b = some p') : p'.Holds bs := by
  rw [Pool.complete] at hcomplete
  split_ifs at hcomplete with hdriver
  obtain rfl := Option.some.inj hcomplete
  have hb : b ∉ bs := by
    rw [← h.owner b, hdriver]
    exact Owner.noConfusion
  exact h.update h.nodup (iff_of_false Owner.noConfusion hb) (fun _ _ => Iff.rfl) h.misused

omit [DecidableEq β] in
theorem Holds.purge (h : p.Holds bs) : p.purge.Holds bs := by
  refine ⟨h.misused, fun c => ?_, h.nodup⟩
  rw [← h.owner c, Pool.purge]
  dsimp only
  split_ifs with hc
  · simp [hc]
  · exact Iff.rfl

end Pool

end LeAudioReceiver
