import LeAudioReceiver.H4.Bridge

/-!
# The H4 bridge loses no byte silently

An overrun of the ring keeps the bytes that fit and raises the fault, while `receive` may have
passed its check already.  The one read that can still follow takes bytes of before the gap: the
overrun filled the ring, and nothing fits in behind the gap before that read.

* `Bridge.Inv` : the invariant, with `Bridge.Inv.rxRdy` and `Bridge.Inv.receive` for its two sides;
* `Bridge.loses_nothing` : **no byte is lost silently**;
* `Bridge.delivered` : what reaches the controller is what the parser makes of a prefix of the
  bytes received.
-/

namespace LeAudioReceiver

namespace H4

namespace Bridge

variable {σ : Type*}

/-- The bytes read from the ring that are still to be fed. -/
def held (s : Bridge σ) : List UInt8 :=
  match s.pc with
  | .feed chunk => chunk
  | _ => []

/-- The invariant of the receive path. -/
structure Inv (s : Bridge σ) : Prop where
  fits : s.ring.length ≤ ringCapacity
  /-- Without a fault nothing is missing. -/
  clean : s.fault = 0 → s.fed ++ s.held ++ s.ring = s.received
  taken : s.fed ++ s.held <+: s.received
  /-- Once the check has passed, the ring holds no gap: an overrun has filled it. -/
  get : s.pc = .get → s.fed ++ s.ring = s.received ∨
    s.fed ++ s.ring <+: s.received ∧ s.ring.length = ringCapacity
  waiting : s.pc = .outer ∨ s.pc = .take → s.fault = 0 → s.ready = false → s.ring = []
  owned : ∀ i, s.driver i = true → s.dmaOwned i = true

theorem Inv.init {s : Bridge σ} (h : s.Init) : s.Inv where
  fits := by simp [h.ring]
  clean _ := by simp [held, h.pc, h.ring, h.received, h.fed]
  taken := by simp [held, h.pc, h.received, h.fed]
  get hpc := by simp [h.pc] at hpc
  waiting _ _ _ := h.ring
  owned i hi := by rw [h.dmaOwned]; rwa [h.driver] at hi

/-! ### Faults -/

theorem cas_fault_ne_zero (s : Bridge σ) {code : ℕ} (hcode : code ≠ 0) :
    (s.cas code).fault ≠ 0 := by
  simp only [cas]
  split_ifs with h
  · exact hcode
  · exact h

/-- The first fault stays. -/
theorem cas_fault_of_ne_zero {s : Bridge σ} (h : s.fault ≠ 0) (code : ℕ) :
    (s.cas code).fault = s.fault := if_neg h

theorem Inv.cas {s : Bridge σ} (h : s.Inv) {code : ℕ} (hcode : code ≠ 0) : (s.cas code).Inv :=
  have hfault := cas_fault_ne_zero s hcode
  ⟨h.fits, fun hf => absurd hf hfault, h.taken, h.get, fun _ hf => absurd hf hfault, h.owned⟩

theorem Inv.give {s : Bridge σ} (h : s.Inv) : s.give.Inv :=
  ⟨h.fits, h.clean, h.taken, h.get, fun _ _ hready => absurd hready (by simp [Bridge.give]),
    h.owned⟩

theorem Inv.fail {s : Bridge σ} (h : s.Inv) {code : ℕ} (hcode : code ≠ 0) :
    (s.fail code).Inv := (h.cas hcode).give

/-! ### The interrupt -/

/-- The bytes that fit are all of them, or so many that the ring is full. -/
theorem stored_cases {ring : List UInt8} (h : ring.length ≤ ringCapacity) (data : List UInt8) :
    data.take (ringCapacity - ring.length) = data ∧ (ring ++ data).length ≤ ringCapacity ∨
      (ring ++ data.take (ringCapacity - ring.length)).length = ringCapacity ∧
        (data.take (ringCapacity - ring.length)).length ≠ data.length := by
  by_cases hfit : data.length ≤ ringCapacity - ring.length
  · refine .inl ⟨List.take_of_length_le hfit, ?_⟩
    rw [List.length_append]
    omega
  · refine .inr ?_
    rw [List.length_append, List.length_take]
    omega

/-- Behind a full ring nothing is stored. -/
theorem stored_full {ring data : List UInt8} (h : ring.length = ringCapacity) :
    data.take (ringCapacity - ring.length) = [] := by
  rw [h, Nat.sub_self, List.take_zero]

theorem Inv.put {s : Bridge σ} (h : s.Inv) {data : List UInt8}
    (hlen : (s.ring ++ data).length ≤ ringCapacity) :
    Inv { s with ring := s.ring ++ data, received := s.received ++ data, ready := true } where
  fits := hlen
  clean hf := by
    change s.fed ++ s.held ++ (s.ring ++ data) = s.received ++ data
    rw [← List.append_assoc, h.clean hf]
  taken := h.taken.trans (List.prefix_append _ _)
  get hpc := by
    rcases h.get hpc with hget | ⟨hget, hfull⟩
    · left
      change s.fed ++ (s.ring ++ data) = s.received ++ data
      rw [← List.append_assoc, hget]
    · -- the ring was full, so there is nothing to store
      have hnil : data = [] := by
        rw [List.length_append] at hlen
        exact List.length_eq_zero_iff.1 (by omega)
      subst hnil
      refine .inr ⟨?_, ?_⟩
      · change s.fed ++ (s.ring ++ []) <+: s.received ++ []
        rwa [List.append_nil, List.append_nil]
      · change (s.ring ++ []).length = ringCapacity
        rwa [List.append_nil]
  waiting _ _ hready := absurd hready (by simp)
  owned := h.owned

theorem Inv.overrun {s : Bridge σ} (h : s.Inv) {data : List UInt8} {code : ℕ}
    (hfull : (s.ring ++ data.take (ringCapacity - s.ring.length)).length = ringCapacity)
    (hcode : code ≠ 0) :
    Inv { s with ring := s.ring ++ data.take (ringCapacity - s.ring.length)
                 received := s.received ++ data, fault := code, ready := true } where
  fits := hfull.le
  clean hf := absurd hf hcode
  taken := h.taken.trans (List.prefix_append _ _)
  get hpc := by
    refine .inr ⟨?_, hfull⟩
    change s.fed ++ (s.ring ++ data.take (ringCapacity - s.ring.length)) <+: s.received ++ data
    rcases h.get hpc with hget | ⟨hget, hring⟩
    · rw [← List.append_assoc, hget]
      exact (List.prefix_append_right_inj _).2 (List.take_prefix _ _)
    · rw [stored_full hring, List.append_nil]
      exact hget.trans (List.prefix_append _ _)
  waiting _ hf := absurd hf hcode
  owned := h.owned

theorem Inv.rxRdy {s : Bridge σ} (h : s.Inv) (data : List UInt8) : (s.rxRdy data).Inv := by
  unfold Bridge.rxRdy
  dsimp only
  rcases stored_cases h.fits data with ⟨hall, hlen⟩ | ⟨hfull, hsome⟩
  · rw [hall, if_neg (not_not.2 rfl)]
    exact h.put hlen
  · rw [if_pos hsome]
    exact h.overrun hfull (cas_fault_ne_zero s one_ne_zero)

/-- A buffer that a request takes has its bit clear. -/
theorem offered_free {s : Bridge σ} {i : Fin 2} (h : s.offered = some i) :
    s.dmaOwned i = false := by
  unfold offered at h
  split_ifs at h with h₀ h₁
  · exact Option.some.inj h ▸ h₀
  · exact Option.some.inj h ▸ h₁

/-- A buffer is offered to the driver only when the driver does not own it. -/
theorem Inv.offered {s : Bridge σ} (h : s.Inv) {i : Fin 2} (hi : s.offered = some i) :
    s.driver i = false := by
  refine Bool.eq_false_iff.2 fun hdriver => ?_
  exact absurd ((offered_free hi).symm.trans (h.owned i hdriver)) (by decide)

theorem Inv.rxBufRequest {s : Bridge σ} (h : s.Inv) (accepts : Bool) :
    (s.rxBufRequest accepts).Inv := by
  unfold Bridge.rxBufRequest
  cases hi : s.offered with
  | none => exact h.fail (by decide)
  | some i =>
    cases accepts with
    | true =>
      refine ⟨h.fits, h.clean, h.taken, h.get, h.waiting, fun j hj => ?_⟩
      change Function.update s.driver i true j = true at hj
      change Function.update s.dmaOwned i true j = true
      by_cases hji : j = i
      · rw [hji, Function.update_self]
      · rw [Function.update_of_ne hji] at hj ⊢
        exact h.owned j hj
    | false =>
      have hclear : ∀ j, s.driver j = true → Function.update s.dmaOwned i false j = true := by
        intro j hj
        have hji : j ≠ i := by
          rintro rfl
          exact absurd (hj.symm.trans (h.offered hi)) (by decide)
        rw [Function.update_of_ne hji]
        exact h.owned j hj
      have hinv : Inv { s with dmaOwned := Function.update s.dmaOwned i false } :=
        ⟨h.fits, h.clean, h.taken, h.get, h.waiting, hclear⟩
      exact hinv.fail (by decide)

theorem Inv.rxBufReleased {s : Bridge σ} (h : s.Inv) (buf : Option (Fin 2)) :
    (s.rxBufReleased buf).Inv := by
  cases buf with
  | none => exact h.fail (by decide)
  | some i =>
    refine ⟨h.fits, h.clean, h.taken, h.get, h.waiting, fun j hj => ?_⟩
    change Function.update s.driver i false j = true at hj
    change Function.update s.dmaOwned i false j = true
    by_cases hji : j = i
    · rw [hji, Function.update_self] at hj
      exact absurd hj (by decide)
    · rw [Function.update_of_ne hji] at hj ⊢
      exact h.owned j hj

/-! ### The thread -/

variable {submit : UInt8 → List UInt8 → σ → ℤ × σ}

theorem Inv.read {s : Bridge σ} (h : s.Inv) (hpc : s.pc = .get) :
    Inv { s with ring := s.ring.drop chunkSize
                 pc := if (s.ring.take chunkSize).length = 0 then .outer
                   else .feed (s.ring.take chunkSize) } := by
  have hheld : s.held = [] := by rw [held, hpc]
  have hfront : s.fed ++ s.ring <+: s.received := by
    rcases h.get hpc with hget | ⟨hget, -⟩
    · exact hget ▸ List.prefix_rfl
    · exact hget
  have hfits : (s.ring.drop chunkSize).length ≤ ringCapacity := by
    rw [List.length_drop]
    exact (Nat.sub_le _ _).trans h.fits
  by_cases hempty : (s.ring.take chunkSize).length = 0
  · -- the ring is empty
    have hnil : s.ring = [] := by
      rw [List.length_take] at hempty
      exact List.length_eq_zero_iff.1 (by simp only [chunkSize] at hempty; omega)
    rw [if_pos hempty]
    refine ⟨hfits, fun hf => ?_, ?_, fun h' => ?_, fun _ _ _ => ?_, h.owned⟩
    · have hclean := h.clean hf
      rw [hheld, hnil] at hclean
      simpa [held, hnil] using hclean
    · have htaken := h.taken
      rw [hheld] at htaken
      exact htaken
    · cases h'
    · change s.ring.drop chunkSize = []
      rw [hnil, List.drop_nil]
  · rw [if_neg hempty]
    refine ⟨hfits, fun hf => ?_, ?_, fun h' => ?_, fun h' => ?_, h.owned⟩
    · have hclean := h.clean hf
      rw [hheld, List.append_nil] at hclean
      change s.fed ++ s.ring.take chunkSize ++ s.ring.drop chunkSize = s.received
      rw [List.append_assoc, List.take_append_drop, hclean]
    · change s.fed ++ s.ring.take chunkSize <+: s.received
      refine List.IsPrefix.trans ?_ hfront
      exact (List.prefix_append_right_inj _).2 (List.take_prefix _ _)
    · cases h'
    · rcases h' with h' | h' <;> cases h'

theorem Inv.feed {s : Bridge σ} (h : s.Inv) {chunk : List UInt8} (hpc : s.pc = .feed chunk)
    (session : Session σ) {pc : Pc} (hnext : pc = .yield ∨ pc = .failCas) :
    Inv { s with session := session, fed := s.fed ++ chunk, pc := pc } := by
  have hheld : s.held = chunk := by rw [held, hpc]
  have hclean := h.clean
  have htaken := h.taken
  rw [hheld] at hclean htaken
  rcases hnext with rfl | rfl
  · refine ⟨h.fits, fun hf => ?_, ?_, fun h' => ?_, fun h' => ?_, h.owned⟩
    · simpa [held] using hclean hf
    · simpa [held] using htaken
    · cases h'
    · rcases h' with h' | h' <;> cases h'
  · refine ⟨h.fits, fun hf => ?_, ?_, fun h' => ?_, fun h' => ?_, h.owned⟩
    · simpa [held] using hclean hf
    · simpa [held] using htaken
    · cases h'
    · rcases h' with h' | h' <;> cases h'

/-- The thread moves on without reading or feeding. -/
theorem Inv.move {s : Bridge σ} (h : s.Inv) (hheld : s.held = []) {pc : Pc} {ready : Bool}
    (hpc : ∀ chunk, pc ≠ .feed chunk)
    (hget : pc = .get → s.fault = 0)
    (hwait : pc = .outer ∨ pc = .take → s.fault = 0 → ready = false → s.ring = []) :
    Inv { s with pc := pc, ready := ready } := by
  have hnone : held { s with pc := pc, ready := ready } = [] := by
    unfold held
    dsimp only
    split
    · rename_i chunk
      exact absurd rfl (hpc chunk)
    · rfl
  have hclean := h.clean
  have htaken := h.taken
  rw [hheld] at hclean htaken
  refine ⟨h.fits, fun hf => ?_, ?_, fun h' => ?_, hwait, h.owned⟩
  · rw [hnone]
    exact hclean hf
  · rw [hnone]
    exact htaken
  · left
    have hall := hclean (hget h')
    rwa [List.append_nil] at hall

theorem Inv.receive {s s' : Bridge σ} (h : s.Inv) (hs : s.receive submit = some s') : s'.Inv := by
  unfold Bridge.receive at hs
  -- only `get` takes from the ring, and only `feed` hands on to the parser
  cases hpc : s.pc with
  | outer =>
    simp only [hpc, Option.some.injEq] at hs
    subst hs
    have hheld : s.held = [] := by rw [held, hpc]
    refine h.move hheld (fun chunk => ?_) (fun h' => ?_) fun _ => h.waiting (.inl hpc)
    · split_ifs <;> simp
    · split_ifs at h'
  | take =>
    simp only [hpc] at hs
    split_ifs at hs with hready
    cases hs
    have hheld : s.held = [] := by rw [held, hpc]
    exact h.move hheld (by simp) (by simp) (by simp)
  | inner =>
    simp only [hpc, Option.some.injEq] at hs
    subst hs
    have hheld : s.held = [] := by rw [held, hpc]
    by_cases hf : s.fault = 0
    · rw [if_pos hf]
      exact h.move hheld (by simp) (fun _ => hf) (by simp)
    · rw [if_neg hf]
      exact h.move hheld (by simp) (by simp) fun _ hf' => absurd hf' hf
  | get =>
    simp only [hpc, Option.some.injEq] at hs
    subst hs
    exact h.read hpc
  | feed chunk =>
    simp only [hpc, Option.some.injEq] at hs
    subst hs
    refine h.feed hpc _ ?_
    split_ifs
    · exact .inl rfl
    · exact .inr rfl
  | failCas =>
    simp only [hpc, Option.some.injEq] at hs
    subst hs
    have hheld : (s.cas 7).held = [] := by simp only [held, Bridge.cas, hpc]
    exact (h.cas (by decide)).move hheld (by simp) (by simp) (by simp)
  | failGive =>
    simp only [hpc, Option.some.injEq] at hs
    subst hs
    have hheld : s.give.held = [] := by simp only [held, Bridge.give, hpc]
    exact h.give.move hheld (by simp) (by simp) (by simp)
  | yield =>
    simp only [hpc, Option.some.injEq] at hs
    subst hs
    have hheld : s.held = [] := by rw [held, hpc]
    exact h.move hheld (by simp) (by simp) (by simp)
  | ended => simp [hpc] at hs

/-! ### Runs -/

/-- Every step keeps the invariant. -/
theorem Inv.next {s s' : Bridge σ} {a : Action} (h : s.Inv) (hs : s.next submit a = some s') :
    s'.Inv := by
  cases a with
  | rxRdy data => exact Option.some.inj hs ▸ h.rxRdy data
  | rxBufRequest accepts => exact Option.some.inj hs ▸ h.rxBufRequest accepts
  | rxBufReleased buf =>
    simp only [Bridge.next] at hs
    split_ifs at hs
    exact Option.some.inj hs ▸ h.rxBufReleased buf
  | rxStopped => exact Option.some.inj hs ▸ h.fail (by decide)
  | txAborted => exact Option.some.inj hs ▸ h.fail (by decide)
  | receive => exact h.receive hs
  | mainFails =>
    simp only [Bridge.next] at hs
    split_ifs at hs
    have hcas := h.cas (show 8 ≠ 0 by decide)
    exact Option.some.inj hs ▸ ⟨hcas.fits, hcas.clean, hcas.taken, hcas.get, hcas.waiting,
      hcas.owned⟩
  | mainGives =>
    simp only [Bridge.next] at hs
    split_ifs at hs
    have hgive := h.give
    exact Option.some.inj hs ▸ ⟨hgive.fits, hgive.clean, hgive.taken, hgive.get, hgive.waiting,
      hgive.owned⟩

theorem reachable_inv {s : Bridge σ} (h : (machine submit).Reachable s) : s.Inv :=
  h.invariant (fun _ => Inv.init) fun _ _ _ hs hnext => hs.next hnext

theorem next_fault {s s' : Bridge σ} {a : Action} (hf : s.fault ≠ 0)
    (hs : s.next submit a = some s') : s'.fault = s.fault := by
  -- every fault is raised by a compare-and-set, which the first one has won
  have hcas := fun code => cas_fault_of_ne_zero hf code
  cases a with
  | rxRdy data =>
    simp only [next, Option.some.injEq] at hs
    subst hs
    unfold rxRdy
    dsimp only
    split_ifs
    · exact hcas 1
    · rfl
  | rxBufRequest accepts =>
    simp only [next, Option.some.injEq] at hs
    subst hs
    unfold rxBufRequest
    cases s.offered with
    | none => exact hcas 3
    | some i =>
      cases accepts with
      | true => rfl
      | false => exact hcas 2
  | rxBufReleased buf =>
    simp only [next] at hs
    split_ifs at hs
    cases hs
    cases buf with
    | none => exact hcas 4
    | some i => rfl
  | rxStopped => exact Option.some.inj hs ▸ hcas 5
  | txAborted => exact Option.some.inj hs ▸ hcas 6
  | receive =>
    simp only [next, receive] at hs
    cases hpc : s.pc <;> simp only [hpc, Option.some.injEq, reduceCtorEq] at hs
    case take =>
      split_ifs at hs
      cases hs
      rfl
    case failCas => exact hs ▸ hcas 7
    all_goals
      subst hs
      rfl
  | mainFails =>
    simp only [next] at hs
    split_ifs at hs
    exact Option.some.inj hs ▸ hcas 8
  | mainGives =>
    simp only [next] at hs
    split_ifs at hs
    exact Option.some.inj hs ▸ rfl

theorem run_fault {s s' : Bridge σ} {as : List Action} (hf : s.fault ≠ 0)
    (hrun : (machine submit).run s as = some s') : s'.fault = s.fault := by
  induction as generalizing s with
  | nil => exact Option.some.inj hrun ▸ rfl
  | cons a as ih =>
    obtain ⟨t, hnext, hrun'⟩ := Option.bind_eq_some_iff.1 hrun
    have ht := next_fault hf hnext
    exact (ih (ht ▸ hf) hrun').trans ht

/-- **No byte is lost silently.**  In every state reached, the bytes fed to the parser are a prefix
of those received, and all of them if the thread waits with no token and there is no fault; no
buffer is offered to the driver while the driver owns it; and the first fault stays. -/
theorem loses_nothing {s : Bridge σ} (h : (machine submit).Reachable s) :
    s.fed <+: s.received ∧
      (s.pc = .take → s.ready = false → s.fault = 0 → s.fed = s.received) ∧
      (∀ i, s.offered = some i → s.driver i = false) ∧
      (∀ as s', s.fault ≠ 0 → (machine submit).run s as = some s' → s'.fault = s.fault) := by
  have hinv := reachable_inv h
  refine ⟨?_, fun hpc hready hf => ?_, fun _ => hinv.offered, fun _ _ => run_fault⟩
  · exact (List.prefix_append _ _).trans hinv.taken
  · have hclean := hinv.clean hf
    have hheld : s.held = [] := by rw [held, hpc]
    rwa [hheld, hinv.waiting (.inr hpc) hf hready, List.append_nil, List.append_nil] at hclean

/-- The bridge right after `main` has started it. -/
def start (session : Session σ) : Bridge σ :=
  { ring := [], ready := false, fault := 0, dmaOwned := fun i => i == 0, driver := fun i => i == 0
    pc := .outer, mainGives := false, session := session.init fun _ => 0, received := []
    fed := [] }

theorem start_init (session : Session σ) : (start session).Init :=
  ⟨rfl, rfl, rfl, rfl, rfl, rfl, rfl, ⟨_, _, rfl⟩, rfl, rfl⟩

/-- A command in two events, the second of which arrives while the first is being fed.  The thread
feeds both and waits. -/
def command : List Action :=
  [.rxRdy [1, 3], .receive, .receive, .receive, .receive, .rxRdy [12, 0]] ++
    List.replicate 13 .receive

theorem loses_nothing_command :
    ∃ s, (machine fun _ _ (_ : Unit) => (0, ())).Reachable s ∧ s.received = [1, 3, 12, 0] ∧
      s.pc = .take ∧ s.fed = s.received := by
  have hrun : ((machine fun _ _ (_ : Unit) => (0, ())).run
      (start ⟨.init fun _ => 0, (), [], []⟩) command).map
      (fun s => (s.received, s.pc, s.ready, s.fault)) =
      some ([1, 3, 12, 0], .take, false, 0) := by decide +kernel
  obtain ⟨s, hs, h⟩ := Option.map_eq_some_iff.1 hrun
  obtain ⟨hreceived, hpc, hready, hfault⟩ : _ ∧ _ ∧ _ ∧ _ := by simpa only [Prod.mk.injEq] using h
  have hreach := Machine.Reachable.run (.init (start_init _)) hs
  exact ⟨s, hreach, hreceived, hpc, (loses_nothing hreach).2.1 hpc hready hfault⟩

/-! ### What reaches the controller -/

/-- Only the parser's step touches the parser and the record of what it was fed. -/
theorem next_fed {s s' : Bridge σ} {a : Action} (hs : s.next submit a = some s') :
    s'.session = s.session ∧ s'.fed = s.fed ∨
      ∃ chunk, s'.session = (s.session.feed submit chunk).1 ∧ s'.fed = s.fed ++ chunk := by
  cases a with
  | rxRdy data =>
    simp only [next, Option.some.injEq] at hs
    subst hs
    unfold rxRdy
    dsimp only
    split_ifs <;> exact .inl ⟨rfl, rfl⟩
  | rxBufRequest accepts =>
    simp only [next, Option.some.injEq] at hs
    subst hs
    unfold rxBufRequest
    cases s.offered with
    | none => exact .inl ⟨rfl, rfl⟩
    | some i => cases accepts <;> exact .inl ⟨rfl, rfl⟩
  | rxBufReleased buf =>
    simp only [next] at hs
    split_ifs at hs
    cases hs
    cases buf <;> exact .inl ⟨rfl, rfl⟩
  | rxStopped => exact Option.some.inj hs ▸ .inl ⟨rfl, rfl⟩
  | txAborted => exact Option.some.inj hs ▸ .inl ⟨rfl, rfl⟩
  | receive =>
    simp only [next, receive] at hs
    cases hpc : s.pc <;> simp only [hpc, Option.some.injEq, reduceCtorEq] at hs
    case take =>
      split_ifs at hs
      exact Option.some.inj hs ▸ .inl ⟨rfl, rfl⟩
    case feed chunk => exact hs ▸ .inr ⟨chunk, rfl, rfl⟩
    all_goals
      subst hs
      exact .inl ⟨rfl, rfl⟩
  | mainFails =>
    simp only [next] at hs
    split_ifs at hs
    exact Option.some.inj hs ▸ .inl ⟨rfl, rfl⟩
  | mainGives =>
    simp only [next] at hs
    split_ifs at hs
    exact Option.some.inj hs ▸ .inl ⟨rfl, rfl⟩

/-- The parser is as if what it was fed had come in one piece. -/
def Parsed (submit : UInt8 → List UInt8 → σ → ℤ × σ) (s : Bridge σ) : Prop :=
  ∃ (mem : ℕ → UInt8) (s₀ : Session σ), s.session = ((s₀.init mem).feed submit s.fed).1

theorem reachable_parsed {s : Bridge σ} (h : (machine submit).Reachable s) : s.Parsed submit := by
  refine h.invariant (fun s hs => ?_) fun s a s' ih hnext => ?_
  · obtain ⟨mem, s₀, hsession⟩ := hs.session
    refine ⟨mem, s₀, ?_⟩
    rw [hsession, hs.fed, Session.feed_ok rfl]
    rfl
  · obtain ⟨mem, s₀, hsession⟩ := ih
    refine ⟨mem, s₀, ?_⟩
    rcases next_fed hnext with ⟨hsame, hfed⟩ | ⟨chunk, hmore, hfed⟩
    · rw [hsame, hfed, hsession]
    · rw [hmore, hfed, Session.feed_append, hsession]

/-- While the host sends packets, the controller gets their beginning: each one complete, once and
in order. -/
theorem delivered {s : Bridge σ} (h : (machine submit).Reachable s) {ps : List Packet}
    (hps : s.received <+: ps.flatMap Packet.encode) :
    ∃ s₀ : Session σ,
      s.session.calls <+: s₀.calls ++ (Packet.deliverEach submit ps s₀.user).1 := by
  obtain ⟨mem, s₀, hsession⟩ := reachable_parsed h
  obtain ⟨rest, hrest⟩ := (loses_nothing h).1.trans hps
  refine ⟨s₀, ?_⟩
  have hall := (Session.feed_encode_all submit (s := s₀.init mem) rfl rfl ps).1
  rw [← hrest, Session.feed_append, ← hsession] at hall
  exact hall ▸ Session.calls_prefix_feed s.session rest

end Bridge

end H4

end LeAudioReceiver
