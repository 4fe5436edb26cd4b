import LeAudioReceiver.Iso.Basic
import Mathlib.Algebra.BigOperators.Group.List.Basic
import Mathlib.Data.List.Chain

/-!
# What the sequence tracker accounts for

The packets of a stream are numbered one after the other, modulo `2 ^ 16`.  Some positions are
delivered; between two of them at most `ISO_SEQ_MAX_CONCEAL` are missing.

* `Seq.updates_missing` : the numbers reported with a packet are those missing in front of it;
* `Seq.sequence_accounting` : delivered and reported packets make up **the whole span**, however
  often the number wraps; and whatever numbers are delivered, a call reports a bounded omission,
  and the number after it is contiguous.
-/

namespace LeAudioReceiver

namespace Iso

/-- The numbers that a call reports as omitted. -/
def SeqUpdate.reported (u : SeqUpdate) : List UInt16 :=
  (List.range u.omitted).map fun i => u.firstSeq + UInt16.ofNat i

/-- The number of the packet at position `p`. -/
def number (base : UInt16) (p : ℕ) : UInt16 := base + UInt16.ofNat p

/-- The numbers between the positions `a` and `b`. -/
def between (base : UInt16) (a b : ℕ) : List UInt16 :=
  (List.range' (a + 1) (b - a - 1)).map (number base)

/-- `b` is delivered after `a`, with at most `ISO_SEQ_MAX_CONCEAL` packets missing. -/
def Follows (M : MaxConceal) (a b : ℕ) : Prop := a < b ∧ b ≤ a + 1 + M.val

instance (M : MaxConceal) : DecidableRel (Follows M) :=
  fun _ _ => inferInstanceAs (Decidable (_ ∧ _))

namespace Seq

variable (M : MaxConceal)

/-- The calls for the numbers `seqs`. -/
def updates : Seq → List UInt16 → List SeqUpdate
  | _, [] => []
  | st, seq :: seqs => st.update M seq :: updates (st.update M seq).st seqs

/-- The packets that they report as omitted. -/
def omissions (st : Seq) (seqs : List UInt16) : ℕ := ((st.updates M seqs).map (·.omitted)).sum

/-- The tracker behind them. -/
def after (st : Seq) (seqs : List UInt16) : Seq :=
  seqs.foldl (fun st seq => (st.update M seq).st) st

variable {M} {st : Seq}

theorem omissions_cons (seq : UInt16) (seqs : List UInt16) :
    st.omissions M (seq :: seqs) =
      (st.update M seq).omitted + (st.update M seq).st.omissions M seqs := rfl

/-! ### One call -/

theorem update_first (h : st.initialized = false) (seq : UInt16) :
    st.update M seq = ⟨.first, 0, 0, { st with initialized := true, lastSeq := seq }⟩ := by
  unfold update
  rw [if_pos (by simp [h])]

theorem update_bounded (M : MaxConceal) (st : Seq) (seq : UInt16) :
    (st.update M seq).omitted ≤ M.val ∧ (st.update M seq).st.initialized = true ∧
      (st.update M seq).st.lastSeq = seq := by
  cases hinit : st.initialized with
  | false =>
    rw [update_first hinit]
    exact ⟨Nat.zero_le _, rfl, rfl⟩
  | true =>
    unfold update
    rw [if_neg (by simp [hinit])]
    dsimp only
    split_ifs with hdup _ hgap
    · -- a duplicate stores nothing, and the stored position is its number already
      have hsame : seq = st.lastSeq := by
        have hsub : seq - st.lastSeq = 0 := UInt16.toNat_inj.1 hdup
        rw [← UInt16.sub_add_cancel seq st.lastSeq, hsub, UInt16.zero_add]
      exact ⟨Nat.zero_le _, hinit, hsame.symm⟩
    · exact ⟨Nat.zero_le _, hinit, rfl⟩
    · exact ⟨by dsimp only; omega, hinit, rfl⟩
    · exact ⟨Nat.zero_le _, hinit, rfl⟩

/-- The next number after any call. -/
theorem update_next (M : MaxConceal) (st : Seq) (seq : UInt16) :
    ((st.update M seq).st.update M (seq + 1)).result = .contig := by
  obtain ⟨-, hinit, hlast⟩ := update_bounded M st seq
  generalize (st.update M seq).st = t at hinit hlast
  have hdelta : (seq + 1 - t.lastSeq).toNat = 1 := by
    rw [hlast, UInt16.add_comm, UInt16.add_sub_cancel]
    rfl
  unfold update
  rw [if_neg (by simp [hinit])]
  dsimp only
  rw [hdelta, if_neg Nat.one_ne_zero, if_pos rfl]

theorem number_sub (base : UInt16) {a b : ℕ} (h : a ≤ b) :
    number base b - number base a = UInt16.ofNat (b - a) := by
  have hsplit : UInt16.ofNat b = UInt16.ofNat a + UInt16.ofNat (b - a) := by
    rw [← UInt16.ofNat_add, Nat.add_sub_cancel' h]
  unfold number
  rw [hsplit, ← UInt16.add_assoc, UInt16.add_comm, UInt16.add_sub_cancel]

theorem update_follows {base : UInt16} {a b : ℕ} (hinit : st.initialized = true)
    (hlast : st.lastSeq = number base a) (h : Follows M a b) :
    (st.update M (number base b)).reported = between base a b ∧
      (st.update M (number base b)).omitted = b - a - 1 ∧
      (st.update M (number base b)).st =
        ⟨true, number base b, st.concealed + UInt32.ofNat (b - a - 1), st.resyncs⟩ := by
  obtain ⟨hlt, hle⟩ := h
  have hM := M.le
  have hdelta : (number base b - st.lastSeq).toNat = b - a := by
    rw [hlast, number_sub base hlt.le, UInt16.toNat_ofNat']
    exact Nat.mod_eq_of_lt (by omega)
  unfold update
  rw [if_neg (by simp [hinit])]
  dsimp only
  rw [hdelta, if_neg (by omega), hinit]
  by_cases hone : b - a = 1
  · have hzero : b - a - 1 = 0 := by omega
    rw [if_pos hone]
    unfold between
    rw [hzero]
    refine ⟨rfl, rfl, ?_⟩
    exact congrArg (fun n => (⟨true, number base b, n, st.resyncs⟩ : Seq))
      (UInt32.add_zero _).symm
  · rw [if_neg hone, if_pos (by omega), hlast]
    refine ⟨?_, rfl, rfl⟩
    -- the first reported number is the one behind position `a`
    unfold SeqUpdate.reported between
    rw [List.range'_eq_map_range, List.map_map]
    refine List.map_congr_left fun i _ => ?_
    have hone' : (1 : UInt16) = UInt16.ofNat 1 := rfl
    dsimp only [number, Function.comp_apply]
    rw [UInt16.ofNat_add, UInt16.ofNat_add, ← hone', UInt16.add_assoc, UInt16.add_assoc,
      UInt16.add_assoc]

/-! ### Sequences of calls -/

/-- Each call reports the numbers missing in front of its packet. -/
theorem updates_missing {base : UInt16} {a : ℕ} {ps : List ℕ} (hinit : st.initialized = true)
    (hlast : st.lastSeq = number base a) (h : List.IsChain (Follows M) (a :: ps)) :
    (st.updates M (ps.map (number base))).map SeqUpdate.reported =
      List.zipWith (between base) (a :: ps) ps := by
  induction ps generalizing a st with
  | nil => rfl
  | cons b ps ih =>
    obtain ⟨hab, hps⟩ := List.isChain_cons_cons.1 h
    obtain ⟨hreported, -, hst⟩ := update_follows hinit hlast hab
    have hrest := ih (congrArg Seq.initialized hst) (congrArg Seq.lastSeq hst) hps
    rw [List.map_cons, updates, List.map_cons, List.zipWith_cons_cons, hreported, hrest]

theorem omissions_span {base : UInt16} {a : ℕ} {ps : List ℕ} (hinit : st.initialized = true)
    (hlast : st.lastSeq = number base a) (h : List.IsChain (Follows M) (a :: ps)) :
    a + (ps.length + st.omissions M (ps.map (number base))) =
        (a :: ps).getLast (List.cons_ne_nil a ps) ∧
      (st.after M (ps.map (number base))).concealed =
        st.concealed + UInt32.ofNat (st.omissions M (ps.map (number base))) ∧
      (st.after M (ps.map (number base))).resyncs = st.resyncs := by
  induction ps generalizing a st with
  | nil => exact ⟨rfl, (UInt32.add_zero _).symm, rfl⟩
  | cons b ps ih =>
    obtain ⟨hab, hps⟩ := List.isChain_cons_cons.1 h
    obtain ⟨-, homitted, hst⟩ := update_follows hinit hlast hab
    obtain ⟨hspan, hconcealed, hresyncs⟩ :=
      ih (congrArg Seq.initialized hst) (congrArg Seq.lastSeq hst) hps
    have hlt := hab.1
    have hafter : st.after M ((b :: ps).map (number base)) =
        (st.update M (number base b)).st.after M (ps.map (number base)) := rfl
    rw [hafter, hresyncs, hconcealed, List.map_cons, omissions_cons, homitted,
      List.getLast_cons (List.cons_ne_nil b ps), ← hspan, List.length_cons, UInt32.ofNat_add,
      ← UInt32.add_assoc]
    refine ⟨by omega, ?_, by rw [hst]⟩
    rw [hst]

/-- **Accounting.**  The packets at the positions `p` and `ps` are delivered, with gaps within the
bound.  Each call reports exactly the numbers missing in front of its packet, the packets
delivered and omitted are as many as the span has positions, and nothing is taken for a
resynchronisation.  And for any numbers whatever, each call reports at most
`ISO_SEQ_MAX_CONCEAL` packets, and the number behind its own is contiguous. -/
theorem sequence_accounting (M : MaxConceal) :
    (∀ (base : UInt16) (p : ℕ) (ps : List ℕ), List.IsChain (Follows M) (p :: ps) →
      (reset.updates M ((p :: ps).map (number base))).map SeqUpdate.reported =
          [] :: List.zipWith (between base) (p :: ps) ps ∧
        (p :: ps).length + reset.omissions M ((p :: ps).map (number base)) =
          (p :: ps).getLast (List.cons_ne_nil p ps) - p + 1 ∧
        (reset.after M ((p :: ps).map (number base))).concealed =
          UInt32.ofNat (reset.omissions M ((p :: ps).map (number base))) ∧
        (reset.after M ((p :: ps).map (number base))).resyncs = 0) ∧
      ∀ (st : Seq) (seqs : List UInt16),
        (∀ u ∈ st.updates M seqs, u.omitted ≤ M.val) ∧
          ∀ seq, (((st.after M seqs).update M seq).st.update M (seq + 1)).result = .contig := by
  constructor
  · intro base p ps h
    -- the first packet only sets the position
    have hfirst : reset.update M (number base p) =
        ⟨.first, 0, 0, ⟨true, number base p, 0, 0⟩⟩ := update_first rfl _
    have hmissing := @updates_missing M ⟨true, number base p, 0, 0⟩ base p ps rfl rfl h
    obtain ⟨hspan, hconcealed, hresyncs⟩ :=
      @omissions_span M ⟨true, number base p, 0, 0⟩ base p ps rfl rfl h
    have hupdates : reset.updates M ((p :: ps).map (number base)) =
        ⟨.first, 0, 0, ⟨true, number base p, 0, 0⟩⟩ ::
          updates M ⟨true, number base p, 0, 0⟩ (ps.map (number base)) := by
      rw [List.map_cons, updates, hfirst]
    have homissions : reset.omissions M ((p :: ps).map (number base)) =
        omissions M ⟨true, number base p, 0, 0⟩ (ps.map (number base)) := by
      rw [List.map_cons, omissions_cons, hfirst]
      exact Nat.zero_add _
    have hafter : reset.after M ((p :: ps).map (number base)) =
        after M ⟨true, number base p, 0, 0⟩ (ps.map (number base)) := by
      rw [List.map_cons, after, List.foldl_cons, hfirst]
      rfl
    rw [hupdates, homissions, hafter, List.map_cons, hmissing, hconcealed, hresyncs, ← hspan,
      List.length_cons]
    exact ⟨rfl, by omega, UInt32.zero_add _, rfl⟩
  · intro st seqs
    refine ⟨?_, fun seq => update_next M _ seq⟩
    induction seqs generalizing st with
    | nil => exact nofun
    | cons seq seqs ih =>
      intro u hu
      rcases List.mem_cons.1 hu with rfl | hu
      · exact (update_bounded M st seq).1
      · exact ih _ u hu

/-- Across the wrap of the number, two packets missing. -/
theorem sequence_accounting_wrap :
    (reset.updates ⟨8, by decide, by decide⟩ ([0, 3].map (number 0xFFFE))).map
        SeqUpdate.reported = [[], [0xFFFF, 0]] :=
  ((sequence_accounting ⟨8, by decide, by decide⟩).1 0xFFFE 0 [3] (by decide)).1

end Seq

end Iso

end LeAudioReceiver
