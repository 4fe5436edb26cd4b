import LeAudioReceiver.BapEndpoint.Basic
import Mathlib.Data.List.Perm.Basic

/-!
# Who owns a transport and its descriptor

A transport is recorded as pending, as acquired in the locals of the acquire, and as acquired in the
endpoint.  The acquire leaves the pending record where it is, so a path has two records from then
on.

* `Central.Inv` : each descriptor is in one record or closed, and each record of the endpoint is of
  a path that is configured;
* `Central.owns_of_careful` : **in every careful run** a mono endpoint holds one path at most,
  nothing is left of a path that was cleared, and every descriptor is closed once;
* `Central.clear_leaves_record` : clearing an acquired transport leaves its pending record.
-/

namespace LeAudioReceiver

namespace BapEndpoint

open Endpoint (fds)

/-! ### Records -/

theorem fds_append (ts us : List Transport) : fds (ts ++ us) = fds ts ++ fds us :=
  List.filterMap_append

theorem fds_bare {ts : List Transport} (h : ∀ t ∈ ts, t.fd = none) : fds ts = [] :=
  List.filterMap_eq_nil_iff.2 h

theorem fds_erase {t : Transport} {ts : List Transport} (h : t ∈ ts) :
    (fds ts).Perm (t.fd.toList ++ fds (ts.erase t)) := by
  have hperm := (List.perm_cons_erase h).filterMap (·.fd)
  refine hperm.trans (List.Perm.of_eq ?_)
  cases hfd : t.fd <;> simp [fds, hfd]

theorem not_mem_erase {ts : List Transport} {t u : Transport} {path : String}
    (hcount : ts.countP (·.path = path) ≤ 1) (ht : t ∈ ts) (hpath : t.path = path)
    (hu : u ∈ ts.erase t) : u.path ≠ path := by
  intro hupath
  have hperm : ts.countP (·.path = path) = (t :: ts.erase t).countP (·.path = path) :=
    (List.perm_cons_erase ht).countP_eq _
  have hcons : (t :: ts.erase t).countP (·.path = path) =
      (ts.erase t).countP (·.path = path) + 1 :=
    List.countP_cons_of_pos (by simpa using hpath)
  have hpos : 0 < (ts.erase t).countP (·.path = path) :=
    List.countP_pos_iff.2 ⟨u, hu, decide_eq_true hupath⟩
  omega

namespace Endpoint

variable {e e' : Endpoint} {path : String}

/-- What `ClearConfiguration` does: nothing, or one record goes. -/
theorem clearConfiguration_cases (e : Endpoint) (path : String) :
    ((∀ t ∈ e.records, t.path ≠ path) ∧ e.clearConfiguration path = (e, [])) ∨
    ∃ t ∈ e.records, t.path = path ∧ e.clearConfiguration path =
      ({ e with
          transports := if t ∈ e.transports then e.transports.erase t else e.transports
          pendingTransports :=
            if t ∈ e.pendingTransports then e.pendingTransports.erase t
            else e.pendingTransports },
        t.fd.toList) := by
  unfold clearConfiguration
  split
  · rename_i hnone
    refine .inl ⟨fun t ht hpath => ?_, rfl⟩
    have := List.find?_eq_none.1 hnone t ht
    exact this (decide_eq_true hpath)
  · rename_i t hsome
    have hpath : t.path = path := by simpa using List.find?_some hsome
    exact .inr ⟨t, List.mem_of_find?_eq_some hsome, hpath, rfl⟩

theorem mem_of_mem_erase_ite {t u : Transport} {ts : List Transport}
    (h : u ∈ if t ∈ ts then ts.erase t else ts) : u ∈ ts := by
  split at h
  · exact List.mem_of_mem_erase h
  · exact h

theorem mem_of_mem_clear {t : Transport} (h : t ∈ (e.clearConfiguration path).1.records) :
    t ∈ e.records := by
  rcases clearConfiguration_cases e path with ⟨-, heq⟩ | ⟨u, -, -, heq⟩
  · rwa [heq] at h
  · rw [heq] at h
    rcases List.mem_append.1 h with h | h
    · exact List.mem_append_left _ (mem_of_mem_erase_ite h)
    · exact List.mem_append_right _ (mem_of_mem_erase_ite h)

theorem mem_transports_of_clear {t : Transport}
    (h : t ∈ (e.clearConfiguration path).1.transports) : t ∈ e.transports := by
  rcases clearConfiguration_cases e path with ⟨-, heq⟩ | ⟨u, -, -, heq⟩
  · rwa [heq] at h
  · rw [heq] at h
    exact mem_of_mem_erase_ite h

theorem mem_pending_of_clear {t : Transport}
    (h : t ∈ (e.clearConfiguration path).1.pendingTransports) : t ∈ e.pendingTransports := by
  rcases clearConfiguration_cases e path with ⟨-, heq⟩ | ⟨u, -, -, heq⟩
  · rwa [heq] at h
  · rw [heq] at h
    exact mem_of_mem_erase_ite h

theorem clear_path (hcount : e.records.countP (·.path = path) ≤ 1) {t : Transport}
    (h : t ∈ (e.clearConfiguration path).1.records) : t.path ≠ path := by
  rcases clearConfiguration_cases e path with ⟨hnone, heq⟩ | ⟨u, hu, hpath, heq⟩
  · rw [heq] at h
    exact hnone t h
  · rw [records, List.countP_append] at hcount
    have hpos : ∀ {ts : List Transport}, u ∈ ts → 0 < ts.countP (·.path = path) := fun hmem =>
      List.countP_pos_iff.2 ⟨u, hmem, decide_eq_true hpath⟩
    have hother : ∀ {ts : List Transport}, ts.countP (·.path = path) = 0 → t ∈ ts →
        t.path ≠ path := fun hzero hmem => by
      have := List.countP_eq_zero.1 hzero t hmem
      exact fun hp => this (decide_eq_true hp)
    rw [heq] at h
    rcases List.mem_append.1 h with h | h
    · by_cases hmem : u ∈ e.transports
      · rw [if_pos hmem] at h
        exact not_mem_erase (by omega) hmem hpath h
      · rw [if_neg hmem] at h
        have hpend := hpos ((List.mem_append.1 hu).resolve_left hmem)
        have hzero : e.transports.countP (·.path = path) = 0 := by omega
        exact hother hzero h
    · by_cases hmem : u ∈ e.pendingTransports
      · rw [if_pos hmem] at h
        exact not_mem_erase (by omega) hmem hpath h
      · rw [if_neg hmem] at h
        have hacq := hpos ((List.mem_append.1 hu).resolve_right hmem)
        have hzero : e.pendingTransports.countP (·.path = path) = 0 := by omega
        exact hother hzero h

/-- The descriptor of the record that goes is the one that is closed. -/
theorem clear_fds (hbare : ∀ t ∈ e.pendingTransports, t.fd = none) (path : String) :
    (fds e.transports).Perm
      ((e.clearConfiguration path).2 ++ fds (e.clearConfiguration path).1.transports) := by
  rcases clearConfiguration_cases e path with ⟨-, heq⟩ | ⟨t, ht, -, heq⟩
  · rw [heq]
    exact List.Perm.refl _
  · rw [heq]
    dsimp only
    by_cases hmem : t ∈ e.transports
    · rw [if_pos hmem]
      exact fds_erase hmem
    · have hpend := (List.mem_append.1 ht).resolve_left hmem
      rw [if_neg hmem, hbare t hpend]
      exact List.Perm.refl _

theorem clear_mono (e : Endpoint) (path : String) :
    (e.clearConfiguration path).1.mono = e.mono := by
  rcases clearConfiguration_cases e path with ⟨-, heq⟩ | ⟨t, -, -, heq⟩ <;> rw [heq]

theorem setConfiguration_ok {configuration : List UInt8}
    (h : e.setConfiguration path configuration = .ok e') :
    e'.mono = e.mono ∧ e'.transports = e.transports ∧
      (∃ alloc, e'.pendingTransports = e.pendingTransports ++ [⟨path, none, 0, alloc⟩]) ∧
      (e.mono = true → e.records = []) := by
  unfold setConfiguration at h
  split at h
  · cases h
  rename_i hfull
  dsimp only at h
  split at h
  · cases h
  split at h
  · cases h
  obtain rfl := Except.ok.inj h
  refine ⟨rfl, rfl, ⟨_, rfl⟩, fun hmono => ?_⟩
  have hlength : e.pendingTransports.length + e.transports.length = 0 := by
    by_contra hne
    exact hfull ⟨hmono, by omega⟩
  rw [records, List.eq_nil_of_length_eq_zero (l := e.transports) (by omega),
    List.eq_nil_of_length_eq_zero (l := e.pendingTransports) (by omega)]
  rfl

/-- A selection changes the reservation at most. -/
theorem selectProperties_ok {channels : ℕ} {sel : Selection}
    (h : e.selectProperties channels = .ok (sel, e')) :
    e'.mono = e.mono ∧ e'.transports = e.transports ∧
      e'.pendingTransports = e.pendingTransports := by
  unfold selectProperties at h
  split at h
  · cases h
  split at h
  · cases h
  dsimp only at h
  obtain ⟨-, rfl⟩ := Prod.mk.inj (Except.ok.inj h)
  exact ⟨rfl, rfl, rfl⟩

/-- A mono endpoint without records takes a channel that is not reserved against. -/
theorem admitted (hempty : e.records = []) {channels : ℕ}
    (hchannels : channels = 0x01 ∨ channels = 0x02)
    (hselected : e.monoSelectedChannel = none ∨ e.monoSelectedChannel = some channels) :
    (∃ r, e.selectProperties channels = .ok r) ∧
      ∀ path configuration, channelAllocOf configuration = channels →
        ∃ e', e.setConfiguration path configuration = .ok e' := by
  obtain ⟨htransports, hpending⟩ := List.append_eq_nil_iff.1 hempty
  have hlength : ¬e.pendingTransports.length + e.transports.length ≥ 1 := by
    rw [htransports, hpending]
    decide
  constructor
  · unfold selectProperties
    rw [if_neg ?_, if_neg fun h => h.2 hchannels]
    · exact ⟨_, rfl⟩
    · rintro ⟨-, h | ⟨hne, hne'⟩⟩
      · exact hlength h
      · exact hselected.elim hne hne'
  · intro path configuration halloc
    unfold setConfiguration
    rw [if_neg fun h => hlength h.2]
    dsimp only
    rw [halloc, if_neg fun h => h.2 hchannels, if_neg ?_]
    · exact ⟨_, rfl⟩
    · rintro ⟨-, hne, hne'⟩
      exact hselected.elim hne fun heq => hne' heq.symm

end Endpoint

/-! ### Runs -/

namespace Phase

/-- The acquire has not been started. -/
def Before : Phase → Prop
  | .waitConfig | .grace => True
  | _ => False

/-- The main thread streams. -/
def Streams : Phase → Prop
  | .streaming _ _ => True
  | _ => False

/-- The run of the main thread has ended. -/
def Over : Phase → Prop
  | .failed _ | .released => True
  | _ => False

end Phase

namespace Central

/-- The acquired transports that only the acquire knows. -/
def owned (c : Central) : List Transport := if c.phase = .acquiring then c.acquired else []

/-- The transports that are pending or acquired. -/
def held (c : Central) : List Transport := c.endpoint.records ++ c.owned

/-- What the endpoint promises: one path in mono mode, no record of a path that is not configured,
so that a mono endpoint is free again, and each descriptor closed once. -/
structure Owns (c : Central) : Prop where
  mono : c.endpoint.mono = true → ∀ t ∈ c.held, ∀ u ∈ c.held, t.path = u.path
  cleared : ∀ t ∈ c.endpoint.records, t.path ∈ c.configured
  admitted : c.configured = [] → ∀ channels, (channels = 0x01 ∨ channels = 0x02) →
    (c.endpoint.monoSelectedChannel = none ∨ c.endpoint.monoSelectedChannel = some channels) →
    (∃ r, c.endpoint.selectProperties channels = .ok r) ∧
      ∀ path configuration, channelAllocOf configuration = channels →
        ∃ e, c.endpoint.setConfiguration path configuration = .ok e
  once : c.closed.Nodup ∧ ∀ fd ∈ c.closed, fd < c.obtained
  settled : c.phase.Over → ∀ fd < c.obtained, fd ∈ c.closed

/-- The acquire succeeds. -/
def Installs (c : Central) : Prop :=
  c.acquireDone = true ∧ c.acquireErrors = [] ∧ c.acquired.length = c.nPending

/-- A path is cleared while it has one record at most; a reply arrives while the acquire waits for
it, and in mono mode for the path that is held; a mono endpoint is not configured for another path
than one that is being acquired; and the acquire installs paths that are still configured. -/
def Careful (c : Central) : Input → Prop
  | .setConfiguration path configuration =>
    c.endpoint.mono = true → (∃ e, c.endpoint.setConfiguration path configuration = .ok e) →
      ∀ t ∈ c.owned, t.path = path
  | .clearConfiguration path => c.endpoint.records.countP (·.path = path) ≤ 1
  | .acquireOk k _ =>
    c.phase = .acquiring ∧ (c.endpoint.mono = true →
      ∀ r, c.requests[k]? = some r → ∀ t ∈ c.held, t.path = r.path)
  | .checkAcquire _ => c.Installs → ∀ t ∈ c.acquired, t.path ∈ c.configured
  | _ => True

/-- What holds in every state of a careful run. -/
structure Inv (c : Central) : Prop where
  same : c.endpoint.mono = true → ∀ t ∈ c.held, ∀ u ∈ c.held, t.path = u.path
  cleared : ∀ t ∈ c.endpoint.records, t.path ∈ c.configured
  bare : ∀ t ∈ c.endpoint.pendingTransports, t.fd = none
  fresh : c.phase.Before → c.acquired = []
  empty : ¬c.phase.Streams → c.endpoint.transports = []
  perm : (fds c.endpoint.transports ++ fds c.owned ++ c.closed).Perm (List.range c.obtained)

variable {c c' : Central}

theorem Inv.owns (h : Inv c) : Owns c := by
  have hmem : ∀ {fd : ℕ}, fd ∈ fds c.endpoint.transports ++ fds c.owned ++ c.closed ↔
      fd < c.obtained := h.perm.mem_iff.trans List.mem_range
  have hnodup := h.perm.nodup_iff.2 List.nodup_range
  refine ⟨h.same, h.cleared, fun hfree channels hchannels hselected => ?_,
    ⟨(List.nodup_append.1 hnodup).2.1, fun fd hfd => hmem.1 (List.mem_append_right _ hfd)⟩,
    fun hover fd hfd => ?_⟩
  · refine Endpoint.admitted (List.eq_nil_iff_forall_not_mem.2 fun t ht => ?_) hchannels hselected
    have := h.cleared t ht
    rw [hfree] at this
    cases this
  · have hempty : c.endpoint.transports = [] ∧ c.owned = [] := by
      refine ⟨h.empty fun hs => ?_, if_neg fun heq => ?_⟩
      · cases hphase : c.phase <;> rw [hphase] at hover hs <;> first | exact hover | exact hs
      · rw [heq] at hover
        exact hover
    have := hmem.2 hfd
    rw [hempty.1, hempty.2] at this
    exact this

theorem Inv.of_phase (h : Inv c) (hendpoint : c'.endpoint = c.endpoint)
    (hconfigured : c'.configured = c.configured) (hobtained : c'.obtained = c.obtained)
    (hsub : ∀ t ∈ c'.owned, t ∈ c.owned) (hbefore : c'.phase.Before → c'.acquired = [])
    (hstreams : c.phase.Streams → c'.phase.Streams)
    (hfds : (fds c'.owned ++ c'.closed).Perm (fds c.owned ++ c.closed)) : Inv c' := by
  refine ⟨?_, ?_, ?_, hbefore, fun hs => ?_, ?_⟩
  · intro hmono t ht u hu
    rw [hendpoint] at hmono
    have hheld : ∀ t ∈ c'.held, t ∈ c.held := by
      intro t ht
      rcases List.mem_append.1 ht with ht | ht
      · rw [hendpoint] at ht
        exact List.mem_append_left _ ht
      · exact List.mem_append_right _ (hsub t ht)
    exact h.same hmono t (hheld t ht) u (hheld u hu)
  · rw [hendpoint, hconfigured]
    exact h.cleared
  · rw [hendpoint]
    exact h.bare
  · rw [hendpoint]
    exact h.empty fun hs' => hs (hstreams hs')
  · rw [hendpoint, hobtained, List.append_assoc]
    refine (hfds.append_left _).trans ?_
    rw [← List.append_assoc]
    exact h.perm

theorem inv_init (mono : Bool) : Inv (init mono) := by
  refine ⟨fun _ t ht => ?_, fun t ht => ?_, fun t ht => ?_, fun _ => rfl, fun _ => rfl,
    List.Perm.refl _⟩
  · cases ht
  · cases ht
  · cases ht

/-! ### Callbacks -/

theorem inv_selectProperties (h : Inv c) {channels : ℕ} {r : Selection × Endpoint}
    (hok : c.endpoint.selectProperties channels = .ok r) : Inv { c with endpoint := r.2 } := by
  obtain ⟨hmono, htransports, hpending⟩ := Endpoint.selectProperties_ok hok
  have hrecords : r.2.records = c.endpoint.records := by
    rw [Endpoint.records, htransports, hpending]
    rfl
  have hheld : { c with endpoint := r.2 }.held = c.held := congrArg (· ++ c.owned) hrecords
  refine ⟨?_, ?_, ?_, h.fresh, fun hs => htransports.trans (h.empty hs), ?_⟩
  · rw [hheld]
    exact fun hm => h.same (hmono.symm.trans hm)
  · rw [hrecords]
    exact h.cleared
  · rw [hpending]
    exact h.bare
  · rw [htransports]
    exact h.perm

theorem inv_setConfiguration (h : Inv c) {path : String} {configuration : List UInt8} {e : Endpoint}
    (hcareful : c.Careful (.setConfiguration path configuration))
    (hok : c.endpoint.setConfiguration path configuration = .ok e) :
    Inv { c with endpoint := e, configured := c.configured ++ [path] } := by
  obtain ⟨hmono, htransports, ⟨alloc, hpending⟩, hfree⟩ := Endpoint.setConfiguration_ok hok
  have hrecords : ∀ t ∈ e.records, t ∈ c.endpoint.records ∨ t = ⟨path, none, 0, alloc⟩ := by
    intro t ht
    rw [Endpoint.records, htransports, hpending, ← List.append_assoc] at ht
    rcases List.mem_append.1 ht with ht | ht
    · exact .inl ht
    · exact .inr (List.mem_singleton.1 ht)
  refine ⟨fun hm => ?_, fun t ht => ?_, fun t ht => ?_, h.fresh,
    fun hs => htransports.trans (h.empty hs), ?_⟩
  · -- the new record is the only one, and what is being acquired has its path
    have hm' : c.endpoint.mono = true := hmono.symm.trans hm
    have hpath : ∀ t ∈
        ({ c with endpoint := e, configured := c.configured ++ [path] } : Central).held,
        t.path = path := by
      intro t ht
      rcases List.mem_append.1 ht with ht | ht
      · rcases hrecords t ht with ht | rfl
        · rw [hfree hm'] at ht
          cases ht
        · rfl
      · exact hcareful hm' ⟨e, hok⟩ t ht
    exact fun t ht u hu => (hpath t ht).trans (hpath u hu).symm
  · rcases hrecords t ht with ht | rfl
    · exact List.mem_append_left _ (h.cleared t ht)
    · exact List.mem_append_right _ (List.mem_singleton_self _)
  · rw [hpending] at ht
    rcases List.mem_append.1 ht with ht | ht
    · exact h.bare t ht
    · rw [List.mem_singleton.1 ht]
  · rw [htransports]
    exact h.perm

theorem inv_clearConfiguration (h : Inv c) {path : String}
    (hcareful : c.Careful (.clearConfiguration path)) :
    Inv { c with
      endpoint := (c.endpoint.clearConfiguration path).1
      closed := c.closed ++ (c.endpoint.clearConfiguration path).2
      configured := c.configured.filter (· ≠ path) } := by
  refine ⟨fun hm t ht u hu => ?_, fun t ht => ?_, fun t ht => ?_, h.fresh, fun hs => ?_, ?_⟩
  · rw [Endpoint.clear_mono] at hm
    have hheld : ∀ {t}, t ∈ (c.endpoint.clearConfiguration path).1.records ++ c.owned →
        t ∈ c.held := by
      intro t ht
      rcases List.mem_append.1 ht with ht | ht
      · exact List.mem_append_left _ (Endpoint.mem_of_mem_clear ht)
      · exact List.mem_append_right _ ht
    exact h.same hm t (hheld ht) u (hheld hu)
  · refine List.mem_filter.2 ⟨h.cleared t (Endpoint.mem_of_mem_clear ht), ?_⟩
    exact decide_eq_true (Endpoint.clear_path hcareful ht)
  · exact h.bare t (Endpoint.mem_pending_of_clear ht)
  · refine List.eq_nil_iff_forall_not_mem.2 fun t ht => ?_
    have := Endpoint.mem_transports_of_clear ht
    rw [h.empty hs] at this
    cases this
  · refine List.Perm.trans ?_ h.perm
    have hfds := Endpoint.clear_fds h.bare path
    change (fds (c.endpoint.clearConfiguration path).1.transports ++ fds c.owned ++
      (c.closed ++ (c.endpoint.clearConfiguration path).2)).Perm _
    rw [← List.append_assoc]
    refine List.perm_append_comm.trans ?_
    rw [← List.append_assoc, ← List.append_assoc]
    exact (hfds.symm.append_right _).append_right _

theorem inv_release (h : Inv c) :
    Inv { c with
      endpoint := c.endpoint.release.1, closed := c.closed ++ c.endpoint.release.2
      configured := [] } := by
  refine ⟨fun hm t ht u hu => ?_, fun t ht => ?_, fun t ht => ?_, h.fresh, fun _ => rfl, ?_⟩
  · exact h.same hm t (List.mem_append_right _ ht) u (List.mem_append_right _ hu)
  · cases ht
  · cases ht
  · refine List.Perm.trans ?_ h.perm
    change (fds c.owned ++ (c.closed ++ fds c.endpoint.records)).Perm _
    rw [Endpoint.records, fds_append, fds_bare h.bare, List.append_nil, ← List.append_assoc]
    refine List.perm_append_comm.trans ?_
    rw [← List.append_assoc]

/-! ### The main thread -/

theorem owned_of_ne (hphase : c.phase ≠ .acquiring) : c.owned = [] := if_neg hphase

theorem Inv.startAcquire (h : Inv c) (hbefore : c.phase.Before) : Inv c.startAcquire := by
  have howned : c.startAcquire.owned = [] := h.fresh hbefore
  have hold : c.owned = [] := owned_of_ne fun heq => by
    rw [heq] at hbefore
    exact hbefore
  refine h.of_phase rfl rfl rfl (fun t ht => ?_) (fun hb => hb.elim) (fun hs => ?_) ?_
  · rw [howned] at ht
    cases ht
  · cases hphase : c.phase <;> rw [hphase] at hbefore hs <;> first | exact hbefore | exact hs
  · rw [howned, hold]
    exact List.Perm.refl _

theorem inv_checkConfig (h : Inv c) (hphase : c.phase = .waitConfig) (expired : Bool) :
    Inv (c.checkConfig expired) := by
  have hbefore : c.phase.Before := by
    rw [hphase]
    trivial
  have hold : c.owned = [] := owned_of_ne (by rw [hphase]; decide)
  have hmove : ∀ p : Phase, p ≠ .acquiring → Inv { c with phase := p } := by
    intro p hp
    have hnew : { c with phase := p }.owned = [] := if_neg hp
    refine h.of_phase rfl rfl rfl (fun t ht => ?_) (fun _ => h.fresh hbefore) (fun hs => ?_) ?_
    · rw [hnew] at ht
      cases ht
    · rw [hphase] at hs
      cases hs
    · rw [hnew, hold]
  unfold checkConfig
  split
  · split
    · exact hmove _ (by simp)
    · exact h
  · split
    · exact hmove _ (by simp)
    · split
      · exact hmove _ (by decide)
      · exact h.startAcquire hbefore

theorem Inv.failAcquire (h : Inv c) (hphase : c.phase = .acquiring) (message : String) :
    Inv (c.failAcquire message) := by
  have howned : c.owned = c.acquired := if_pos hphase
  have hnew : (c.failAcquire message).owned = [] := if_neg (by simp [Central.failAcquire])
  refine h.of_phase rfl rfl rfl (fun t ht => ?_) (fun hb => hb.elim) (fun hs => ?_) ?_
  · rw [hnew] at ht
    cases ht
  · rw [hphase] at hs
    exact hs.elim
  · rw [hnew, howned]
    change (c.closed ++ fds c.acquired).Perm _
    exact List.perm_append_comm

theorem Inv.install (h : Inv c) (hphase : c.phase = .acquiring)
    (hconfigured : ∀ t ∈ c.acquired, t.path ∈ c.configured) : Inv c.install := by
  have howned : c.owned = c.acquired := if_pos hphase
  have hnew : c.install.owned = [] := if_neg (by simp [Central.install])
  have hempty := h.empty (by rw [hphase]; exact fun hs => hs)
  refine ⟨fun hm t ht u hu => ?_, fun t ht => ?_, h.bare, fun hb => hb.elim,
    fun hs => absurd trivial hs, ?_⟩
  · have hheld : ∀ {t}, t ∈ c.install.held → t ∈ c.held := by
      intro t ht
      rw [held, hnew, List.append_nil] at ht
      rcases List.mem_append.1 ht with ht | ht
      · exact List.mem_append_right _ (howned ▸ ht)
      · exact List.mem_append_left _ (List.mem_append_right _ ht)
    exact h.same hm t (hheld ht) u (hheld hu)
  · rcases List.mem_append.1 ht with ht | ht
    · exact hconfigured t ht
    · exact h.cleared t (List.mem_append_right _ ht)
  · have hperm := h.perm
    rw [hempty, howned] at hperm
    rw [hnew]
    change (fds c.acquired ++ [] ++ c.closed).Perm _
    rw [List.append_nil]
    exact hperm

theorem inv_checkAcquire (h : Inv c) (hphase : c.phase = .acquiring) (expired : Bool)
    (hcareful : c.Careful (.checkAcquire expired)) : Inv (c.checkAcquire expired) := by
  unfold checkAcquire
  split
  · split
    · exact h.failAcquire hphase _
    · exact h
  · rename_i hdone
    split
    · exact h.failAcquire hphase _
    · rename_i hall
      have hclean : c.acquireErrors = [] := by_contra fun hne => hall (.inl hne)
      have hfull : c.acquired.length = c.nPending := by_contra fun hne => hall (.inr hne)
      split
      · rename_i hnone
        have howned : c.owned = [] := (if_pos hphase).trans hnone
        refine h.of_phase rfl rfl rfl (fun t ht => ?_) (fun hb => hb.elim) (fun hs => ?_) ?_
        · cases ht
        · rw [hphase] at hs
          exact hs.elim
        · rw [howned]
          exact List.Perm.refl _
      · exact h.install hphase (hcareful ⟨by simpa using hdone, hclean, hfull⟩)

theorem inv_acquireOk (h : Inv c) {k writeMtu : ℕ} {r : Request}
    (hcareful : c.Careful (.acquireOk k writeMtu)) (hr : c.requests[k]? = some r) :
    Inv ({ c with requests := c.requests.eraseIdx k }.onAcquireOk r writeMtu) := by
  obtain ⟨hphase, hpath⟩ := hcareful
  have howned : c.owned = c.acquired := if_pos hphase
  have hnew : ({ c with requests := c.requests.eraseIdx k }.onAcquireOk r writeMtu).owned =
      c.acquired ++ [⟨r.path, some c.obtained, writeMtu, r.channelAlloc⟩] := if_pos hphase
  refine ⟨fun hm => ?_, h.cleared, h.bare, fun hb => ?_, h.empty, ?_⟩
  · have hall : ∀ t ∈ ({ c with requests := c.requests.eraseIdx k }.onAcquireOk r writeMtu).held,
        t.path = r.path := by
      intro t ht
      rw [held, hnew, ← List.append_assoc, ← howned] at ht
      rcases List.mem_append.1 ht with ht | ht
      · exact hpath hm r hr t ht
      · rw [List.mem_singleton.1 ht]
    exact fun t ht u hu => (hall t ht).trans (hall u hu).symm
  · change c.phase.Before at hb
    rw [hphase] at hb
    exact hb.elim
  · rw [hnew]
    have hperm := h.perm
    rw [howned] at hperm
    change (fds c.endpoint.transports ++ fds (c.acquired ++ [_]) ++ c.closed).Perm
      (List.range (c.obtained + 1))
    rw [fds_append, List.range_succ, ← List.append_assoc]
    refine List.Perm.trans ?_ (hperm.append_right [c.obtained])
    change (fds c.endpoint.transports ++ fds c.acquired ++ [c.obtained] ++ c.closed).Perm _
    rw [List.append_assoc _ [c.obtained], List.append_assoc _ c.closed]
    exact List.perm_append_comm.append_left _

theorem inv_acquireErr (h : Inv c) (k : ℕ) (r : Request) :
    Inv ({ c with requests := c.requests.eraseIdx k }.onAcquireErr r) :=
  h.of_phase rfl rfl rfl (fun _ ht => ht) h.fresh id (List.Perm.refl _)

theorem inv_releaseTransports (h : Inv c) (hphase : c.phase ≠ .acquiring) :
    Inv c.releaseTransports := by
  have hold : c.owned = [] := owned_of_ne hphase
  have hnew : c.releaseTransports.owned = [] := if_neg (by simp [releaseTransports])
  refine ⟨fun hm t ht u hu => ?_, fun t ht => ?_, h.bare, fun hb => hb.elim, fun _ => rfl, ?_⟩
  · have hheld : ∀ {t}, t ∈ c.releaseTransports.held → t ∈ c.held := by
      intro t ht
      rw [held, hnew, List.append_nil] at ht
      exact List.mem_append_left _ (List.mem_append_right _ ht)
    exact h.same hm t (hheld ht) u (hheld hu)
  · exact h.cleared t (List.mem_append_right _ ht)
  · have hperm := h.perm
    rw [hold] at hperm
    rw [hnew]
    refine List.Perm.trans ?_ hperm
    change (c.closed ++ fds c.endpoint.transports).Perm
      (fds c.endpoint.transports ++ [] ++ c.closed)
    rw [List.append_nil]
    exact List.perm_append_comm

theorem inv_next (h : Inv c) {input : Input} (hcareful : c.Careful input)
    (hnext : c.next input = some c') : Inv c' := by
  -- the callbacks of BlueZ and the phases of the main thread
  cases input with
  | selectProperties channels =>
    rw [next] at hnext
    split at hnext
    · rename_i r hok
      obtain rfl := Option.some.inj hnext
      exact inv_selectProperties h hok
    · obtain rfl := Option.some.inj hnext
      exact h
  | setConfiguration path configuration =>
    rw [next] at hnext
    split at hnext
    · rename_i e hok
      obtain rfl := Option.some.inj hnext
      exact inv_setConfiguration h hcareful hok
    · obtain rfl := Option.some.inj hnext
      exact h
  | clearConfiguration path =>
    obtain rfl := Option.some.inj hnext
    exact inv_clearConfiguration h hcareful
  | release =>
    obtain rfl := Option.some.inj hnext
    exact inv_release h
  | checkConfig expired =>
    rw [next] at hnext
    split at hnext
    · rename_i hphase
      obtain rfl := Option.some.inj hnext
      exact inv_checkConfig h hphase expired
    · cases hnext
  | graceOver =>
    rw [next] at hnext
    split at hnext
    · rename_i hphase
      obtain rfl := Option.some.inj hnext
      exact h.startAcquire (by rw [hphase]; trivial)
    · cases hnext
  | acquireOk k writeMtu =>
    rw [next] at hnext
    obtain ⟨r, hr, rfl⟩ := Option.map_eq_some_iff.1 hnext
    exact inv_acquireOk h hcareful hr
  | acquireErr k =>
    rw [next] at hnext
    obtain ⟨r, -, rfl⟩ := Option.map_eq_some_iff.1 hnext
    exact inv_acquireErr h k r
  | checkAcquire expired =>
    rw [next] at hnext
    split at hnext
    · rename_i hphase
      obtain rfl := Option.some.inj hnext
      exact inv_checkAcquire h hphase expired hcareful
    · cases hnext
  | cleanup =>
    rw [next] at hnext
    split at hnext
    · rename_i mode sduSize hphase
      obtain rfl := Option.some.inj hnext
      exact inv_releaseTransports h (by rw [hphase]; simp)
    · cases hnext

/-- **The ownership in a careful run.** -/
theorem owns_of_careful (h : machine.ReachableBy Careful c) : Owns c := by
  refine Inv.owns (h.invariant ?_ fun c input c' hc hcareful hnext => inv_next hc hcareful hnext)
  rintro c ⟨mono, rfl⟩
  exact inv_init mono

/-- The codec configuration of the left channel. -/
def leftConfiguration : List UInt8 := [0x05, 0x03, 0x01, 0x00, 0x00, 0x00]

/-- A mono run whose transport is cleared behind the cleanup. -/
theorem owns_cleared_behind_cleanup :
    ∃ c, machine.ReachableBy Careful c ∧ c.obtained = 1 ∧ c.phase = .released ∧
      c.endpoint.pendingTransports = [] ∧ Owns c := by
  have h₀ : machine.ReachableBy Careful (init true) := .init ⟨true, rfl⟩
  have h₁ := h₀.step (a := Input.setConfiguration "/t" leftConfiguration)
    (fun _ _ t ht => by cases ht) rfl
  have h₂ := h₁.step (a := Input.checkConfig false) trivial rfl
  have h₃ := h₂.step (a := Input.graceOver) trivial rfl
  have h₄ := h₃.step (a := Input.acquireOk 0 120)
    ⟨rfl, fun _ r hr t ht => by
      obtain rfl := Option.some.inj hr
      rw [List.mem_singleton.1 ht]⟩ rfl
  have h₅ := h₄.step (a := Input.checkAcquire false)
    (fun _ t ht => by
      rw [List.mem_singleton.1 ht]
      exact List.mem_singleton_self _) rfl
  have h₆ := h₅.step (a := Input.cleanup) trivial rfl
  have h₇ := h₆.step (a := Input.clearConfiguration "/t") (Nat.le_of_eq rfl) rfl
  exact ⟨_, h₇, rfl, rfl, rfl, owns_of_careful h₇⟩

/-- The transport of a mono run is acquired and cleared. -/
def clearedAcquired : List Input :=
  [.setConfiguration "/t" leftConfiguration, .checkConfig false, .graceOver, .acquireOk 0 120,
    .checkAcquire false, .clearConfiguration "/t"]

/-- The pending record is left, and the next configuration is rejected. -/
theorem clear_leaves_record :
    ∃ c, machine.Reachable c ∧ c.configured = [] ∧ c.endpoint.transports = [] ∧
      c.endpoint.pendingTransports = [⟨"/t", none, 0, 0x01⟩] ∧
      c.endpoint.setConfiguration "/u" leftConfiguration =
        .error "org.bluez.Error.Rejected: mono transport limit reached" ∧
      ¬Owns c := by
  have hrun : machine.run (init true) clearedAcquired = some _ := rfl
  refine ⟨_, .run (.init ⟨true, rfl⟩) hrun, rfl, rfl, rfl, rfl, fun h => ?_⟩
  exact absurd (h.cleared ⟨"/t", none, 0, 0x01⟩ (List.mem_singleton_self _)) List.not_mem_nil

end Central

end BapEndpoint

end LeAudioReceiver
