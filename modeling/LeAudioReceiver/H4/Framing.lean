import LeAudioReceiver.H4.Basic
import Mathlib.Data.Nat.Bitwise

/-!
# H4 framing

What the parser of `H4.Basic` delivers, for every way a stream is cut into calls of `h4_rx_feed`.

* `Session.feedAll_eq` : feeding fragments is feeding their concatenation;
* `Session.feedAll_latched` : after an error nothing changes any more;
* `Session.InFrame.feedAll` : every store is inside the frame;
* `Session.feed_encode_all` : encoded packets are delivered one by one, up to the first refused;
* `Session.framing` : **the framing of the H4 stream**, which puts these together.
-/

namespace LeAudioReceiver

namespace H4

namespace Session

variable {σ : Type*} {deliver : UInt8 → List UInt8 → σ → ℤ × σ}

/-! ### Fragments -/

@[simp] theorem feedLoop_nil (s : Session σ) : feedLoop deliver [] s = (s, 0) := rfl

theorem feedLoop_cons (b : UInt8) (bs : List UInt8) (s : Session σ) :
    feedLoop deliver (b :: bs) s =
      if (s.byte deliver b).rx.error ≠ 0 then (s.byte deliver b, (s.byte deliver b).rx.error)
      else feedLoop deliver bs (s.byte deliver b) := rfl

theorem feed_latched {s : Session σ} (h : s.rx.error ≠ 0) (data : List UInt8) :
    s.feed deliver data = (s, s.rx.error) := if_pos h

theorem feed_ok {s : Session σ} (h : s.rx.error = 0) (data : List UInt8) :
    s.feed deliver data = feedLoop deliver data s := if_neg (not_not.2 h)

theorem feedLoop_append {s : Session σ} (h : s.rx.error = 0) (a b : List UInt8) :
    (feedLoop deliver (a ++ b) s).1 = ((feedLoop deliver a s).1.feed deliver b).1 := by
  induction a generalizing s with
  | nil => rw [List.nil_append, feedLoop_nil, feed_ok h]
  | cons x a ih =>
    rw [List.cons_append, feedLoop_cons, feedLoop_cons]
    by_cases he : (s.byte deliver x).rx.error = 0
    · rw [if_neg (not_not.2 he), if_neg (not_not.2 he)]
      exact ih he
    · rw [if_pos he, if_pos he, feed_latched he]

theorem feed_append (s : Session σ) (a b : List UInt8) :
    (s.feed deliver (a ++ b)).1 = ((s.feed deliver a).1.feed deliver b).1 := by
  by_cases h : s.rx.error = 0
  · rw [feed_ok h, feed_ok h, feedLoop_append h]
  · rw [feed_latched h, feed_latched h, feed_latched h]

/-- Feeding fragments is feeding their concatenation. -/
theorem feedAll_eq (s : Session σ) (fragments : List (List UInt8)) :
    s.feedAll deliver fragments = (s.feed deliver fragments.flatten).1 := by
  induction fragments generalizing s with
  | nil =>
    by_cases h : s.rx.error = 0
    · rw [List.flatten_nil, feed_ok h]
      rfl
    · rw [List.flatten_nil, feed_latched h]
      rfl
  | cons data fragments ih =>
    rw [List.flatten_cons, feed_append]
    exact ih _

/-- After an error nothing changes any more. -/
theorem feedAll_latched {s : Session σ} (h : s.rx.error ≠ 0) (fragments : List (List UInt8)) :
    s.feedAll deliver fragments = s := by
  rw [feedAll_eq, feed_latched h]

/-! ### Calls -/

theorem header_calls (s : Session σ) : s.header.calls = s.calls := by
  unfold header
  split_ifs <;> rfl

theorem calls_prefix_complete (s : Session σ) : s.calls <+: (s.complete deliver).calls := by
  unfold complete
  dsimp only
  split_ifs
  · exact List.prefix_append _ _
  · exact List.prefix_append _ _
  · exact List.prefix_rfl

theorem calls_prefix_byte (s : Session σ) (b : UInt8) :
    s.calls <+: (s.byte deliver b).calls := by
  have hheader : (s.store b).header.calls = s.calls := header_calls _
  unfold byte typeByte
  dsimp only
  split_ifs
  · exact List.prefix_rfl
  · exact List.prefix_rfl
  · exact List.prefix_rfl
  · exact hheader ▸ List.prefix_rfl
  · exact hheader ▸ calls_prefix_complete _

theorem calls_prefix_feed (s : Session σ) (data : List UInt8) :
    s.calls <+: (s.feed deliver data).1.calls := by
  by_cases herr : s.rx.error = 0
  · rw [feed_ok herr]
    induction data generalizing s with
    | nil => exact List.prefix_rfl
    | cons b bs ih =>
      rw [feedLoop_cons]
      by_cases he : (s.byte deliver b).rx.error = 0
      · rw [if_neg (not_not.2 he)]
        exact (calls_prefix_byte s b).trans (ih _ he)
      · rw [if_pos he]
        exact calls_prefix_byte s b
  · exact (feed_latched herr data).symm ▸ List.prefix_rfl

/-! ### Stores -/

/-- Inside a packet there is a byte to come, and it has a place in the frame. -/
structure InFrame (s : Session σ) : Prop where
  stores : ∀ i ∈ s.stores, i < frameMax
  small : s.rx.type ≠ 0 → s.rx.headerSize ≤ 4
  used : s.rx.error = 0 → s.rx.type ≠ 0 → s.rx.used < s.rx.expected
  expected : s.rx.error = 0 → s.rx.type ≠ 0 → s.rx.expected ≤ frameMax
  header : s.rx.error = 0 → s.rx.type ≠ 0 → s.rx.used < s.rx.headerSize →
    s.rx.expected = s.rx.headerSize

theorem InFrame.typeByte {s : Session σ} (h : s.InFrame) (h₀ : s.rx.type = 0) (b : UInt8) :
    (s.typeByte b).InFrame := by
  unfold Session.typeByte
  split_ifs
  · exact ⟨h.stores, by simp, by simp, by simp [frameMax], by simp⟩
  · exact ⟨h.stores, by simp, by simp, by simp [frameMax], by simp⟩
  · exact ⟨h.stores, by simp [h₀], by simp [h₀], by simp [h₀], by simp [h₀]⟩

/-- What holds after a stored byte and a complete header, before the packet is delivered. -/
structure Stored (s : Session σ) : Prop where
  stores : ∀ i ∈ s.stores, i < frameMax
  small : s.rx.headerSize ≤ 4
  used : s.rx.error = 0 → s.rx.used ≤ s.rx.expected
  expected : s.rx.error = 0 → s.rx.expected ≤ frameMax
  header : s.rx.error = 0 → s.rx.used < s.rx.headerSize → s.rx.expected = s.rx.headerSize

theorem InFrame.stored {s : Session σ} (h : s.InFrame) (herr : s.rx.error = 0)
    (htype : s.rx.type ≠ 0) (b : UInt8) : ((s.store b).header).Stored := by
  have hsmall := h.small htype
  have hused := h.used herr htype
  have hexp := h.expected herr htype
  have hhead := h.header herr htype
  have hstores : ∀ i ∈ (s.store b).stores, i < frameMax := by
    intro i hi
    rcases List.mem_append.1 hi with hi | hi
    · exact h.stores i hi
    · rw [List.mem_singleton.1 hi]
      exact hused.trans_le hexp
  unfold Session.header
  by_cases hend : (s.store b).rx.used = (s.store b).rx.headerSize
  · rw [if_pos hend]
    have hused' : s.rx.used + 1 = s.rx.headerSize := hend
    by_cases hbig : (s.store b).rx.payload > frameMax - (s.store b).rx.headerSize
    · rw [if_pos hbig]
      exact ⟨hstores, hsmall, by simp [emsgsize], by simp [emsgsize], by simp [emsgsize]⟩
    · rw [if_neg hbig]
      have hfit : (s.store b).rx.payload ≤ frameMax - s.rx.headerSize := not_lt.1 hbig
      have heq := hhead (by omega)
      refine ⟨hstores, hsmall, fun _ => ?_, fun _ => ?_, fun _ hlt => ?_⟩
      · simp only [store, Rx.store_used, Rx.store_expected]
        omega
      · simp only [store, Rx.store_expected] at hfit ⊢
        unfold frameMax at hfit ⊢
        omega
      · exact absurd hlt (by simp only [store, Rx.store_used, Rx.store_headerSize]; omega)
  · rw [if_neg hend]
    refine ⟨hstores, hsmall, fun _ => hused, fun _ => hexp, fun _ hlt => ?_⟩
    simp only [store, Rx.store_used, Rx.store_headerSize] at hlt
    exact hhead (by omega)

theorem Stored.complete {s : Session σ} (h : s.Stored) :
    (s.complete deliver).InFrame := by
  unfold Session.complete
  by_cases hend : s.rx.used = s.rx.expected
  · rw [if_pos hend]
    dsimp only
    split_ifs with hret
    · exact ⟨h.stores, fun _ => h.small, fun he => absurd he hret, fun he => absurd he hret,
        fun he => absurd he hret⟩
    · exact ⟨h.stores, by simp, by simp, by simp, by simp⟩
  · rw [if_neg hend]
    exact ⟨h.stores, fun _ => h.small, fun he _ => lt_of_le_of_ne (h.used he) hend,
      fun he _ => h.expected he, fun he _ => h.header he⟩

theorem InFrame.byte {s : Session σ} (h : s.InFrame) (herr : s.rx.error = 0) (b : UInt8) :
    (s.byte deliver b).InFrame := by
  unfold Session.byte
  by_cases htype : s.rx.type = 0
  · rw [if_pos htype]
    exact h.typeByte htype b
  · rw [if_neg htype]
    have hs := h.stored herr htype b
    dsimp only
    by_cases he : (s.store b).header.rx.error = 0
    · rw [if_neg (not_not.2 he)]
      exact hs.complete
    · rw [if_pos he]
      exact ⟨hs.stores, fun _ => hs.small, fun h' => absurd h' he, fun h' => absurd h' he,
        fun h' => absurd h' he⟩

theorem InFrame.feed {s : Session σ} (h : s.InFrame) (data : List UInt8) :
    (s.feed deliver data).1.InFrame := by
  by_cases herr : s.rx.error = 0
  · rw [feed_ok herr]
    induction data generalizing s with
    | nil => exact h
    | cons b bs ih =>
      rw [feedLoop_cons]
      by_cases he : (s.byte deliver b).rx.error = 0
      · rw [if_neg (not_not.2 he)]
        exact ih (h.byte herr b) he
      · rw [if_pos he]
        exact h.byte herr b
  · rw [feed_latched herr]
    exact h

/-- After `h4_rx_init` every store is inside the frame. -/
theorem InFrame.feedAll {s : Session σ} (h : ∀ i ∈ s.stores, i < frameMax) (mem : ℕ → UInt8)
    (fragments : List (List UInt8)) : ((s.init mem).feedAll deliver fragments).InFrame := by
  rw [feedAll_eq]
  have h₀ : (s.init mem).InFrame :=
    ⟨h, by simp [init, Rx.init], by simp [init, Rx.init], by simp [init, Rx.init],
      by simp [init, Rx.init]⟩
  exact h₀.feed _

/-! ### Packets -/

/-- The bytes `q` of the packet `p` have been stored. -/
structure Holding (p : Packet) (q : List UInt8) (rx : Rx) : Prop where
  type : rx.type = p.type
  headerSize : rx.headerSize = p.header.length
  error : rx.error = 0
  packet : rx.packet = q
  expected : rx.expected = if q.length < p.header.length then p.header.length else p.body.length

theorem type_ne_zero (p : Packet) : p.type ≠ 0 := by
  cases p <;> simp [Packet.type]

theorem length_header_pos (p : Packet) : 0 < p.header.length := by
  cases p <;> simp [Packet.header]

theorem length_body_le (p : Packet) : p.body.length ≤ frameMax := by
  cases p <;> simp [Packet.body, Packet.header, Packet.payload, frameMax] <;> omega

theorem or_shift (lo hi : ℕ) (h : lo < 256) : lo ||| hi <<< 8 = hi * 256 + lo := by
  rw [Nat.or_comm, ← Nat.shiftLeft_add_eq_or_of_lt (by omega), Nat.shiftLeft_eq]

theorem payload_header {p : Packet} {rx : Rx} (htype : rx.type = p.type)
    (hpacket : rx.packet = p.header) : rx.payload = p.payload.length := by
  unfold Rx.payload
  cases p with
  | command opcode payload h =>
    have h₂ := Rx.frame_eq hpacket (i := 2) (by simp [Packet.header])
    rw [htype, h₂]
    simp only [Packet.type, Packet.header, Packet.payload, if_pos]
    change payload.length % 256 = _
    omega
  | acl handle payload h =>
    have h₂ := Rx.frame_eq hpacket (i := 2) (by simp [Packet.header])
    have h₃ := Rx.frame_eq hpacket (i := 3) (by simp [Packet.header])
    have hlo : (UInt8.ofNat (payload.length % 256)).toNat = payload.length % 256 := by
      simp
    have hhi : (UInt8.ofNat (payload.length / 256)).toNat = payload.length / 256 := by
      simp only [UInt8.toNat_ofNat']
      omega
    have h1 : rx.type ≠ 1 := by simp [htype, Packet.type]
    have h5 : rx.type ≠ 5 := by simp [htype, Packet.type]
    rw [if_neg h1, if_neg h5, h₂, h₃]
    simp only [Packet.header, Packet.payload, List.getElem_cons_succ, List.getElem_cons_zero,
      hlo, hhi]
    rw [or_shift _ _ (Nat.mod_lt _ (by decide))]
    omega
  | iso handle upper payload h =>
    have h₂ := Rx.frame_eq hpacket (i := 2) (by simp [Packet.header])
    have h₃ := Rx.frame_eq hpacket (i := 3) (by simp [Packet.header])
    have hupper := upper.isLt
    have hlo : (UInt8.ofNat (payload.length % 256)).toNat = payload.length % 256 := by
      simp
    have hhi : (UInt8.ofNat (payload.length / 256 + 64 * upper)).toNat =
        payload.length / 256 + 64 * upper := by
      simp only [UInt8.toNat_ofNat']
      omega
    have h1 : rx.type ≠ 1 := by simp [htype, Packet.type]
    have h5 : rx.type = 5 := htype
    rw [if_neg h1, if_pos h5, h₂, h₃]
    simp only [Packet.header, Packet.payload, List.getElem_cons_succ, List.getElem_cons_zero,
      hlo, hhi]
    rw [or_shift _ _ (Nat.mod_lt _ (by decide)),
      show (0x3fff : ℕ) = 2 ^ 14 - 1 from rfl, Nat.and_two_pow_sub_one_eq_mod]
    omega

variable (deliver) in
theorem Holding.start {s : Session σ} (hready : s.rx.type = 0) (herr : s.rx.error = 0)
    (p : Packet) :
    Holding p [] (s.byte deliver p.type).rx ∧ (s.byte deliver p.type).calls = s.calls ∧
      (s.byte deliver p.type).user = s.user := by
  rw [byte, if_pos hready]
  cases p with
  | command opcode payload h => exact ⟨⟨rfl, rfl, herr, rfl, rfl⟩, rfl, rfl⟩
  | acl handle payload h => exact ⟨⟨rfl, rfl, herr, rfl, rfl⟩, rfl, rfl⟩
  | iso handle upper payload h => exact ⟨⟨rfl, rfl, herr, rfl, rfl⟩, rfl, rfl⟩

theorem Holding.store {p : Packet} {q : List UInt8} {s : Session σ} (h : Holding p q s.rx)
    {b : UInt8} {rest : List UInt8} (hbody : q ++ b :: rest = p.body) :
    Holding p (q ++ [b]) (s.store b).header.rx ∧ (s.store b).header.calls = s.calls ∧
      (s.store b).header.user = s.user := by
  have hpacket : (s.store b).rx.packet = q ++ [b] := by
    simp only [Session.store, Rx.packet_store, h.packet]
  have hused : (s.store b).rx.used = q.length + 1 := by
    rw [← Rx.length_packet, hpacket, List.length_append, List.length_singleton]
  have hsize : (s.store b).rx.headerSize = p.header.length := h.headerSize
  have hexp : (s.store b).rx.expected =
    if q.length < p.header.length then p.header.length else p.body.length := h.expected
  have hlen : p.body.length = p.header.length + p.payload.length := List.length_append
  unfold Session.header
  by_cases hend : q.length + 1 = p.header.length
  · rw [if_pos (hused.trans (hend.trans hsize.symm))]
    -- the bytes so far are the header
    have hheader : q ++ [b] = p.header := by
      have happ : (q ++ [b]) ++ rest = p.header ++ p.payload := by
        rw [List.append_assoc]
        exact hbody
      exact (List.append_inj happ (by rw [List.length_append, ← hend]; rfl)).1
    have hpay : (s.store b).rx.payload = p.payload.length :=
      payload_header h.type (hpacket.trans hheader)
    have hfit : ¬(s.store b).rx.payload > frameMax - (s.store b).rx.headerSize := by
      have hmax := length_body_le p
      rw [hpay, hsize]
      omega
    rw [if_neg hfit]
    refine ⟨⟨h.type, hsize, h.error, hpacket, ?_⟩, rfl, rfl⟩
    have hlast : ¬(q ++ [b]).length < p.header.length := by simp [hend]
    rw [if_neg hlast, hlen]
    change (s.store b).rx.expected + (s.store b).rx.payload = _
    rw [hpay, hexp, if_pos (by omega)]
  · rw [if_neg (by rw [hused, hsize]; exact hend)]
    refine ⟨⟨h.type, hsize, h.error, hpacket, ?_⟩, rfl, rfl⟩
    rw [hexp, List.length_append, List.length_singleton]
    by_cases hlt : q.length < p.header.length
    · rw [if_pos hlt, if_pos (by omega)]
    · rw [if_neg hlt, if_neg (by omega)]

/-- The session after the call of `deliver` for a packet. -/
def Delivered (deliver : UInt8 → List UInt8 → σ → ℤ × σ) (p : Packet) (s s' : Session σ) : Prop :=
  s'.calls = s.calls ++ [p.call] ∧ s'.user = (deliver p.type p.body s.user).2 ∧
    s'.rx.error = (deliver p.type p.body s.user).1 ∧ (s'.rx.error = 0 → s'.rx.type = 0)

variable (deliver) in
/-- The last byte of a packet delivers it. -/
theorem Holding.complete {p : Packet} {s : Session σ} (h : Holding p p.body s.rx) :
    Delivered deliver p s (s.complete deliver) := by
  have hlen : ¬p.body.length < p.header.length := by simp [Packet.body]
  have hused : s.rx.used = s.rx.expected := by
    rw [h.expected, if_neg hlen, ← Rx.length_packet, h.packet]
  unfold Delivered Session.complete
  rw [if_pos hused]
  dsimp only
  rw [h.type, h.packet]
  split_ifs with hret
  · exact ⟨rfl, rfl, rfl, fun he => absurd he hret⟩
  · exact ⟨rfl, rfl, h.error.trans (not_not.1 hret).symm, fun _ => rfl⟩

/-- An incomplete packet is not delivered. -/
theorem Holding.incomplete {p : Packet} {q : List UInt8} {s : Session σ} (h : Holding p q s.rx)
    (hlt : q.length < p.body.length) : s.complete deliver = s := by
  refine if_neg fun hend => ?_
  rw [h.expected, ← Rx.length_packet, h.packet] at hend
  split_ifs at hend <;> omega

variable (deliver) in
/-- One byte of a packet: it is stored, and the last one delivers the packet. -/
theorem Holding.byte {p : Packet} {q : List UInt8} {s : Session σ} (h : Holding p q s.rx)
    {b : UInt8} {rest : List UInt8} (hbody : q ++ b :: rest = p.body) :
    (rest = [] → Delivered deliver p s (s.byte deliver b)) ∧
      (rest ≠ [] → Holding p (q ++ [b]) (s.byte deliver b).rx ∧
        (s.byte deliver b).calls = s.calls ∧ (s.byte deliver b).user = s.user) := by
  obtain ⟨hhold, hcalls, huser⟩ := h.store hbody
  have htype : s.rx.type ≠ 0 := by
    rw [h.type]
    exact type_ne_zero p
  have hbyte : s.byte deliver b = (s.store b).header.complete deliver := by
    rw [Session.byte, if_neg htype]
    exact if_neg (not_not.2 hhold.error)
  rw [hbyte]
  constructor
  · rintro rfl
    rw [hbody] at hhold
    have hdel := hhold.complete deliver
    unfold Delivered at hdel ⊢
    rw [hcalls, huser] at hdel
    exact hdel
  · intro hrest
    have hlt : (q ++ [b]).length < p.body.length := by
      have hpos : 0 < rest.length := List.length_pos_iff.2 hrest
      rw [← hbody]
      simp only [List.length_append, List.length_cons, List.length_nil]
      omega
    rw [hhold.incomplete hlt]
    exact ⟨hhold, hcalls, huser⟩

theorem Holding.feed {p : Packet} {q rest : List UInt8} {s : Session σ} (h : Holding p q s.rx)
    (hbody : q ++ rest = p.body) (hrest : rest ≠ []) (more : List UInt8) :
    ∃ s', Delivered deliver p s s' ∧
      (feedLoop deliver (rest ++ more) s).1 = (s'.feed deliver more).1 := by
  induction rest generalizing q s with
  | nil => exact absurd rfl hrest
  | cons b rest ih =>
    obtain ⟨hlast, hnext⟩ := h.byte deliver hbody
    rw [List.cons_append, feedLoop_cons]
    by_cases hnil : rest = []
    · refine ⟨s.byte deliver b, hlast hnil, ?_⟩
      rw [hnil, List.nil_append]
      by_cases he : (s.byte deliver b).rx.error = 0
      · rw [if_neg (not_not.2 he), feed_ok he]
      · rw [if_pos he, feed_latched he]
    · obtain ⟨hhold, hcalls, huser⟩ := hnext hnil
      rw [if_neg (not_not.2 hhold.error)]
      obtain ⟨s', hdel, hfeed⟩ := ih hhold (by rw [List.append_assoc]; exact hbody) hnil
      refine ⟨s', ?_, hfeed⟩
      unfold Delivered at hdel ⊢
      rw [hcalls, huser] at hdel
      exact hdel

variable (deliver) in
/-- An encoded packet is delivered, and what follows is fed to the session after that. -/
theorem feed_encode {s : Session σ} (hready : s.rx.type = 0) (herr : s.rx.error = 0) (p : Packet)
    (more : List UInt8) :
    ∃ s', Delivered deliver p s s' ∧
      (s.feed deliver (p.encode ++ more)).1 = (s'.feed deliver more).1 := by
  obtain ⟨hhold, hcalls, huser⟩ := Holding.start deliver hready herr p
  have hbody : p.body ≠ [] := by
    have hpos := length_header_pos p
    intro hnil
    rw [Packet.body, List.append_eq_nil_iff] at hnil
    rw [hnil.1] at hpos
    exact absurd hpos (lt_irrefl 0)
  obtain ⟨s', hdel, hfeed⟩ := hhold.feed (List.nil_append _) hbody more
  refine ⟨s', ?_, ?_⟩
  · unfold Delivered at hdel ⊢
    rw [hcalls, huser] at hdel
    exact hdel
  · rw [feed_ok herr, Packet.encode, List.cons_append, feedLoop_cons,
      if_neg (not_not.2 hhold.error)]
    exact hfeed

variable (deliver) in
/-- Encoded packets are delivered one by one, up to the first one refused. -/
theorem feed_encode_all {s : Session σ} (hready : s.rx.type = 0) (herr : s.rx.error = 0)
    (ps : List Packet) :
    let s' := (s.feed deliver (ps.flatMap Packet.encode)).1
    s'.calls = s.calls ++ (Packet.deliverEach deliver ps s.user).1 ∧
      s'.user = (Packet.deliverEach deliver ps s.user).2.1 ∧
      s'.rx.error = (Packet.deliverEach deliver ps s.user).2.2 ∧
      (s'.rx.error = 0 → s'.rx.type = 0) := by
  induction ps generalizing s with
  | nil =>
    rw [List.flatMap_nil, feed_ok herr]
    exact ⟨(List.append_nil _).symm, rfl, herr, fun _ => hready⟩
  | cons p ps ih =>
    rw [List.flatMap_cons]
    obtain ⟨s', ⟨hcalls, huser, herr', hready'⟩, hfeed⟩ :=
      feed_encode deliver hready herr p (ps.flatMap Packet.encode)
    rw [hfeed]
    dsimp only
    unfold Packet.deliverEach
    dsimp only
    by_cases he : s'.rx.error = 0
    · obtain ⟨ihcalls, ihuser, iherr, ihready⟩ := ih (hready' he) he
      rw [if_neg (not_not.2 (herr'.symm.trans he)), ← huser]
      refine ⟨?_, ihuser, iherr, ihready⟩
      rw [ihcalls, hcalls, List.append_assoc, List.singleton_append]
    · rw [if_pos (herr' ▸ he), feed_latched he]
      exact ⟨hcalls, huser, herr', hready'⟩

theorem deliverEach_accepted {ps : List Packet} {user : σ}
    (h : (Packet.deliverEach deliver ps user).2.2 = 0) :
    (Packet.deliverEach deliver ps user).1 = ps.map Packet.call := by
  induction ps generalizing user with
  | nil => rfl
  | cons p ps ih =>
    unfold Packet.deliverEach at h ⊢
    dsimp only at h ⊢
    by_cases hret : (deliver p.type p.body user).1 = 0
    · rw [if_neg (not_not.2 hret)] at h ⊢
      rw [List.map_cons, ← ih h]
    · rw [if_pos hret] at h
      exact absurd h hret

/-- **The framing of the H4 stream.**  After `h4_rx_init`, the encoding of any packets, cut into
calls in any way, has each packet delivered once and in order, up to the first one refused, and
leaves the parser ready if none was; any stream at all has the same effect however it is cut; every
byte is stored inside the frame; and after an error nothing more is delivered. -/
theorem framing (deliver : UInt8 → List UInt8 → σ → ℤ × σ) (s : Session σ) (mem : ℕ → UInt8) :
    (∀ (ps : List Packet) (fragments : List (List UInt8)),
      fragments.flatten = ps.flatMap Packet.encode →
      let s' := (s.init mem).feedAll deliver fragments
      let r := Packet.deliverEach deliver ps s.user
      s'.calls = s.calls ++ r.1 ∧ s'.user = r.2.1 ∧ s'.rx.error = r.2.2 ∧
        (r.2.2 = 0 → r.1 = ps.map Packet.call ∧ s'.rx.type = 0)) ∧
    (∀ fragments fragments' : List (List UInt8), fragments.flatten = fragments'.flatten →
      (s.init mem).feedAll deliver fragments = (s.init mem).feedAll deliver fragments') ∧
    ((∀ i ∈ s.stores, i < frameMax) → ∀ fragments : List (List UInt8),
      ∀ i ∈ ((s.init mem).feedAll deliver fragments).stores, i < frameMax) ∧
    (∀ fragments more : List (List UInt8),
      ((s.init mem).feedAll deliver fragments).rx.error ≠ 0 →
      (s.init mem).feedAll deliver (fragments ++ more) =
        (s.init mem).feedAll deliver fragments) := by
  refine ⟨fun ps fragments hps => ?_, fun fragments fragments' h => ?_,
    fun h fragments => (InFrame.feedAll h mem fragments).stores, fun fragments more h => ?_⟩
  · obtain ⟨hcalls, huser, herr, hready⟩ :=
      feed_encode_all deliver (s := s.init mem) rfl rfl ps
    dsimp only
    rw [feedAll_eq, hps]
    exact ⟨hcalls, huser, herr, fun hr => ⟨deliverEach_accepted hr, hready (herr.trans hr)⟩⟩
  · rw [feedAll_eq, feedAll_eq, h]
  · have hsplit : (s.init mem).feedAll deliver (fragments ++ more) =
        ((s.init mem).feedAll deliver fragments).feedAll deliver more := List.foldl_append
    rw [hsplit, feedAll_latched h]

/-- A command and an ISO packet, cut inside both headers. -/
theorem framing_two :
    (((Session.mk (.init fun _ => 0) () [] []).init fun _ => 7).feedAll (fun _ _ _ => (0, ()))
        [[1, 3], [12, 0, 5, 1], [], [0, 2, 0xc0, 8, 9]]).calls =
      [] ++ [(1, [3, 12, 0]), (5, [1, 0, 2, 0xc0, 8, 9])] := by
  obtain ⟨hcalls, -, -, hall⟩ := (framing (fun _ _ _ => (0, ()))
    (Session.mk (.init fun _ => 0) () [] []) fun _ => 7).1
    [.command (3, 12) [] (by decide), .iso (1, 0) 3 [8, 9] (by decide)]
    [[1, 3], [12, 0, 5, 1], [], [0, 2, 0xc0, 8, 9]] (by decide)
  refine hcalls.trans (congrArg _ ?_)
  exact (hall rfl).1

end Session

end H4

end LeAudioReceiver
