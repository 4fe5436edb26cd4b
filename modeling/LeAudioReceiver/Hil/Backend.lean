import LeAudioReceiver.Hil.StreamConnect

/-!
# The Bluetooth backend of the HIL source

A model of what `src/hil/source/app/src/hil_source_bap.c` owns: the connection, the group of the
streams and the streams that are attached to their endpoints, with the operations that take and give
them back, and of `hil_app_cleanup` in `src/hil/source/app/src/hil_source_app.c`, which gives all of
them back after every segment.

The operations and the cleanup are taken to run on one thread: the worker, or the shell after the
worker is done.  The window between the terminal record of a run and the worker's return is left
out: a START in it leaves the completion of the old run to a later IDLE, whose cleanup then runs
beside the worker.  The callbacks come from a cooperative thread, so one of them runs as a whole
between two steps of the other; a step ends where a lock is left, a function of the stack is called,
or a wait begins.  The stack may answer with anything, connections may be refused, dropped or
reported that are not of the source, and streams may be detached at any time.

`refs` counts the references of the source to a connection, and `groups` the groups that exist, on
the side of the stack.

* `Backend.backend_owned` : **every reference is accounted for**: the pointer to the connection has
  one, and so has the operation that works on it; no pointer to a group is lost, and the stack is
  asked to delete one only when no stream is attached.
* `Backend.cleanup_ok` : **a cleanup that succeeds gives everything back**: the source has no
  connection, no group and no stream afterwards, whatever was lost or refused before, if every
  segment begins after such a cleanup.

The fields of the status, the discovery of endpoints and the semaphores of the other operations are
left out.
-/

namespace LeAudioReceiver

namespace Hil

namespace Backend

/-- A connection object of the stack. -/
abbrev Conn := ℕ

/-- The operations that work on the connection with a reference of their own. -/
inductive HeldOp where
  | security
  | discover
  | configure
  | qos
  deriving DecidableEq, Repr

/-- The places of `hil_app_cleanup`. -/
inductive Place where
  /-- TX is about to be stopped. -/
  | stop
  /-- The loop that disables the streams, at a stream. -/
  | disable (i : ℕ)
  /-- In `kick_disable`, and in the wait behind it. -/
  | disabling (i : ℕ)
  | disableWait (i : ℕ)
  /-- About to read the error of the operation. -/
  | disableError (i : ℕ)
  | release (i : ℕ)
  | releasing (i : ℕ)
  /-- `kick_release` succeeded; the attachment is read again. -/
  | released (i : ℕ)
  | releaseWait (i : ℕ)
  | releaseError (i : ℕ)
  | disconnect
  /-- In `kick_disconnect`. -/
  | disconnectLock
  | disconnecting (ref : Conn)
  | disconnectWait
  /-- The loop that looks for an attached stream. -/
  | attached (i : ℕ)
  /-- In `kick_group_delete`. -/
  | groupDelete
  | groupDeleting
  | groupDeleted
  | unref
  /-- In `bap_conn_unref`, with the pointer that was taken. -/
  | unrefConn (ref : Conn)
  | reset
  deriving DecidableEq, Repr

/-- Where the thread of the operations stands. -/
inductive Pc where
  /-- Between two segments, with the result of the last cleanup. -/
  | idle (ret : ℤ)
  /-- In `kick_connect`, behind the lock. -/
  | connecting
  /-- In the rest of `hil_app_op_connect`. -/
  | connectWait
  /-- In a segment that is connected. -/
  | running
  /-- In an operation that holds a reference; `skip` says that it fails without the stack. -/
  | holding (op : HeldOp) (ref : Conn) (skip : Bool)
  /-- In the cleanup, with its first error. -/
  | cleanup (place : Place) (err : ℤ)
  deriving DecidableEq, Repr

/-- The backend, the stack behind it, and the thread in front. -/
structure St where
  worker : Pc
  /-- `hil_source_mode_stream_count` of the mode of the run. -/
  streams : ℕ
  /-- `default_conn`. -/
  defaultConn : Option Conn
  /-- `unicast_group` is there. -/
  group : Bool
  opError : ℤ
  semDisabled : ℕ
  semReleased : ℕ
  semDisconnected : ℕ
  /-- `conn_owned` and `tx_active` of the app. -/
  connOwned : Bool
  txActive : Bool
  /-- The references of the source to a connection. -/
  refs : Conn → ℕ
  /-- The groups that exist. -/
  groups : ℕ
  /-- `bap_streams[i].ep` is there. -/
  attached : ℕ → Bool

namespace St

/-- The backend at boot. -/
def boot : St :=
  { worker := .idle 0, streams := 0, defaultConn := none, group := false, opError := 0
    semDisabled := 0, semReleased := 0, semDisconnected := 0, connOwned := false, txActive := false
    refs := fun _ => 0, groups := 0, attached := fun _ => false }

/-- `bt_conn_ref`. -/
def ref (s : St) (c : Conn) : St := { s with refs := Function.update s.refs c (s.refs c + 1) }

/-- `bt_conn_unref`. -/
def unref (s : St) (c : Conn) : St := { s with refs := Function.update s.refs c (s.refs c - 1) }

/-- The first error is kept. -/
def recordError (s : St) (err : ℤ) : St := if s.opError = 0 then { s with opError := err } else s

def goto (s : St) (pc : Pc) : St := { s with worker := pc }

/-- The cleanup goes on, and keeps its first error. -/
def then' (s : St) (place : Place) (first ret : ℤ) : St :=
  s.goto (.cleanup place (if first = 0 then ret else first))

/-! ### Callbacks -/

/-- `connected_cb`. -/
def connectedCb (s : St) (conn : Conn) (err : ℕ) : St :=
  if s.defaultConn = some conn then
    if err ≠ 0 then { (s.recordError (-eio)).unref conn with defaultConn := none } else s
  else s.recordError (-eio)

/-- `disconnected_cb`. -/
def disconnectedCb (s : St) (conn : Conn) : St :=
  if s.defaultConn = some conn then
    { s.unref conn with defaultConn := none, semDisconnected := 1 }
  else s

end St

/-- What the stack or the semaphore answers. -/
inductive Answer where
  | go
  /-- A function returns. -/
  | returned (ret : ℤ)
  /-- `bt_conn_le_create` returns a connection. -/
  | created (c : Conn)
  | taken
  | expired
  deriving DecidableEq, Repr

namespace St

/-- A semaphore is taken, or the wait times out. -/
def wait (s : St) (sem : ℕ) (took : St) (place : Place) (err : ℤ) : Answer → Option St
  | .taken => if 0 < sem then some (took.goto (.cleanup place err)) else none
  | .expired => some (s.then' place err (-etimedout))
  | _ => none

/-- One step of `hil_app_cleanup`. -/
def clean (s : St) (err : ℤ) : Place → Answer → Option St
  | .stop, .go => some { s with txActive := false, worker := .cleanup (.disable 0) err }
  | .disable i, .go =>
    if i < s.streams then
      some (s.goto (.cleanup (if s.attached i then .disabling i else .disable (i + 1)) err))
    else some (s.goto (.cleanup (.release 0) err))
  | .disabling i, .go =>
    -- no endpoint, or one that is not streaming
    some { s with
      opError := 0, semDisabled := min (s.semDisabled + 1) 4
      worker := .cleanup (.disableWait i) err }
  | .disabling i, .returned ret =>
    some { s with
      opError := 0
      worker := if ret = 0 then .cleanup (.disableWait i) err
        else .cleanup (.disableError i) (if err = 0 then ret else err) }
  | .disableWait i, a =>
    s.wait s.semDisabled { s with semDisabled := s.semDisabled - 1 } (.disableError i) err a
  | .disableError i, .go => some (s.then' (.disable (i + 1)) err s.opError)
  | .release i, .go =>
    if i < s.streams then
      some (s.goto (.cleanup (if s.attached i then .releasing i else .release (i + 1)) err))
    else some (s.goto (.cleanup .disconnect err))
  | .releasing i, .go =>
    if s.attached i then none
    else
      some { s with
        opError := 0, semReleased := min (s.semReleased + 1) 8
        worker := .cleanup (.released i) err }
  | .releasing i, .returned ret =>
    some { s with
      opError := 0
      worker := if ret = 0 then .cleanup (.released i) err
        else .cleanup (.releaseError i) (if err = 0 then ret else err) }
  | .released i, .go =>
    some (s.goto (.cleanup (if s.attached i then .releaseWait i else .releaseError i) err))
  | .releaseWait i, a =>
    s.wait s.semReleased { s with semReleased := s.semReleased - 1 } (.releaseError i) err a
  | .releaseError i, .go => some (s.then' (.release (i + 1)) err s.opError)
  | .disconnect, .go =>
    some (s.goto (.cleanup (if s.defaultConn = none then .attached 0 else .disconnectLock) err))
  | .disconnectLock, .go =>
    match s.defaultConn with
    | none => some { s with semDisconnected := 1, worker := .cleanup .disconnectWait err }
    | some c => some ((s.ref c).goto (.cleanup (.disconnecting c) err))
  | .disconnecting c, .returned ret =>
    if ret = 0 then some ((s.unref c).goto (.cleanup .disconnectWait err))
    else some ((s.unref c).then' (.attached 0) err ret)
  | .disconnectWait, a =>
    s.wait s.semDisconnected { s with semDisconnected := s.semDisconnected - 1 } (.attached 0) err a
  | .attached i, .go =>
    if i < maxStreams then
      if s.attached i then some (s.then' .unref err (-16))
      else some (s.goto (.cleanup (.attached (i + 1)) err))
    else some (s.goto (.cleanup .groupDelete err))
  | .groupDelete, .go =>
    some (s.goto (.cleanup (if s.group then .groupDeleting else .unref) err))
  | .groupDeleting, .returned ret =>
    if ret = 0 then some { s with groups := s.groups - 1, worker := .cleanup .groupDeleted err }
    else some (s.then' .unref err ret)
  | .groupDeleted, .go => some { s with group := false, worker := .cleanup .unref err }
  | .unref, .go =>
    if s.connOwned then
      match s.defaultConn with
      | none => some { s with connOwned := false, worker := .cleanup .reset err }
      | some c =>
        some { s with
          connOwned := false, defaultConn := none, worker := .cleanup (.unrefConn c) err }
    else some (s.goto (.cleanup .reset err))
  | .unrefConn c, .go => some ((s.unref c).goto (.cleanup .reset err))
  | .reset, .go =>
    some { s with
      opError := 0, semDisabled := 0, semReleased := 0, semDisconnected := 0, worker := .idle err }
  | _, _ => none

end St

/-- What happens. -/
inductive Action where
  /-- A run is configured, or the run is reset. -/
  | shape (mode : Option Mode)
  /-- A segment begins with `kick_connect`. -/
  | kickConnect
  /-- What `bt_conn_le_create` answers. -/
  | create (a : Answer)
  /-- `hil_app_op_connect` succeeds or fails. -/
  | connectReturns (ok : Bool)
  /-- An operation takes its reference; `skip` if it finds no endpoint. -/
  | hold (op : HeldOp) (skip : Bool)
  /-- `bt_bap_stream_config` attaches a stream. -/
  | attach (i : ℕ)
  /-- `bt_bap_unicast_group_create` succeeds. -/
  | createGroup
  /-- The operation gives its reference back. -/
  | letGo
  /-- `tx_start` and the TX stage. -/
  | startTx
  /-- The cleanup begins: at the end of a segment, after an error, or for an `idle` command. -/
  | cleanup
  | clean (a : Answer)
  | connected (conn : Conn) (err : ℕ)
  | disconnected (conn : Conn)
  /-- The stack detaches a stream. -/
  | detach (i : ℕ)
  /-- The callbacks of the streams. -/
  | disabled
  | released
  /-- A callback records an error. -/
  | fails (err : ℤ)
  deriving DecidableEq

/-- One action; `none` where it cannot happen. -/
def next (s : St) : Action → Option St
  | .shape mode =>
    match s.worker with
    | .idle _ => some { s with streams := mode.elim 0 Mode.streamCount }
    | _ => none
  | .kickConnect =>
    match s.worker with
    | .idle _ =>
      if s.defaultConn = none then some { s with opError := 0, worker := .connecting }
      else some (s.goto (.cleanup .stop 0))
    | _ => none
  | .create (.created c) =>
    -- a connection object that the source has no reference to
    if s.worker = .connecting ∧ s.refs c = 0 then
      some { s.ref c with defaultConn := some c, worker := .connectWait }
    else none
  | .create (.returned ret) =>
    if s.worker = .connecting ∧ ret ≠ 0 then some (s.goto (.cleanup .stop 0)) else none
  | .create _ => none
  | .connectReturns ok =>
    if s.worker = .connectWait then
      some (if ok then { s with connOwned := true, worker := .running }
        else s.goto (.cleanup .stop 0))
    else none
  | .hold op skip =>
    if s.worker = .running then
      match s.defaultConn with
      | none => some { s with opError := 0 }
      | some c =>
        some { s.ref c with
          opError := 0, worker := .holding op c (skip || (decide (op = .qos) && s.group)) }
    else none
  | .attach i =>
    match s.worker with
    | .holding .configure _ false =>
      if i < s.streams then some { s with attached := Function.update s.attached i true } else none
    | _ => none
  | .createGroup =>
    match s.worker with
    | .holding .qos c false =>
      some { s with group := true, groups := s.groups + 1, worker := .holding .qos c true }
    | _ => none
  | .letGo =>
    match s.worker with
    | .holding _ c _ => some ((s.unref c).goto .running)
    | _ => none
  | .startTx => if s.worker = .running then some { s with txActive := true } else none
  | .cleanup =>
    match s.worker with
    | .idle _ | .running => some (s.goto (.cleanup .stop 0))
    | _ => none
  | .clean a =>
    match s.worker with
    | .cleanup place err => s.clean err place a
    | _ => none
  | .connected conn err => some (s.connectedCb conn err)
  | .disconnected conn => some (s.disconnectedCb conn)
  | .detach i => some { s with attached := Function.update s.attached i false }
  | .disabled => some { s with semDisabled := min (s.semDisabled + 1) 4 }
  | .released => some { s with semReleased := min (s.semReleased + 1) 8 }
  | .fails err => some (s.recordError err)

/-- The backend from boot on. -/
def machine : Machine St Action where
  init s := s = .boot
  next := next

/-! ### What belongs to the source -/

/-- The reference that the thread itself works with. -/
def Pc.held : Pc → Option Conn
  | .holding _ c _ | .cleanup (.disconnecting c) _ | .cleanup (.unrefConn c) _ => some c
  | _ => none

/-- The streams that are known to be detached. -/
def Pc.checked : Pc → ℕ
  | .cleanup (.attached i) _ => i
  | .cleanup .groupDelete _ | .cleanup .groupDeleting _ | .cleanup .groupDeleted _ => maxStreams
  | .cleanup .unref err | .cleanup (.unrefConn _) err | .cleanup .reset err | .idle err =>
    if err = 0 then maxStreams else 0
  | _ => 0

/-- Behind the part of the cleanup that deletes the group, without an error. -/
def Pc.Ungrouped : Pc → Prop
  | .cleanup .unref err | .cleanup (.unrefConn _) err | .cleanup .reset err | .idle err => err = 0
  | _ => False

/-- The app has no connection of its own here. -/
def Pc.Disowned : Pc → Prop
  | .idle _ | .connecting | .connectWait | .cleanup (.unrefConn _) _ | .cleanup .reset _ => True
  | _ => False

/-- TX is stopped here. -/
def Pc.Quiet : Pc → Prop
  | .running | .holding _ _ _ | .cleanup .stop _ => False
  | _ => True

/-- The group is being deleted; `true` when the stack has done it. -/
def Pc.deleting : Pc → Option Bool
  | .cleanup .groupDeleting _ => some false
  | .cleanup .groupDeleted _ => some true
  | _ => none

/-- The pointers to a connection: that of the backend and that of the thread. -/
def pointers (conn held : Option Conn) (c : Conn) : ℕ :=
  (if conn = some c then 1 else 0) + if held = some c then 1 else 0

/-- What belongs to the source, in every state. -/
structure Owned (s : St) : Prop where
  refs : s.refs = pointers s.defaultConn s.worker.held
  groups : s.groups = if s.group ∧ s.worker.deleting ≠ some true then 1 else 0
  group : s.worker.deleting ≠ none → s.group
  groupless : ∀ c, s.worker = .holding .qos c false → s.group = false
  detached : ∀ i < s.worker.checked, s.attached i = false
  ungrouped : s.worker.Ungrouped → s.group = false
  disowned : s.worker.Disowned → s.connOwned = false
  quiet : s.worker.Quiet → s.txActive = false
  connecting : s.worker = .connecting → s.defaultConn = none

theorem pointers_comm (conn held : Option Conn) : pointers conn held = pointers held conn := by
  funext c
  exact Nat.add_comm _ _

theorem pointers_take (conn : Option Conn) (c : Conn) :
    Function.update (pointers conn none) c (pointers conn none c + 1) =
      pointers conn (some c) := by
  funext c'
  rcases eq_or_ne c' c with rfl | hne
  · rw [Function.update_self]
    simp [pointers]
  · rw [Function.update_of_ne hne]
    simp [pointers, hne.symm]

theorem pointers_give (conn : Option Conn) (c : Conn) :
    Function.update (pointers conn (some c)) c (pointers conn (some c) c - 1) =
      pointers conn none := by
  funext c'
  rcases eq_or_ne c' c with rfl | hne
  · rw [Function.update_self]
    simp [pointers]
  · rw [Function.update_of_ne hne]
    simp [pointers, hne.symm]

theorem refs_ref {s : St} (h : s.refs = pointers s.defaultConn none) (c : Conn) :
    (s.ref c).refs = pointers s.defaultConn (some c) := by
  change Function.update s.refs c (s.refs c + 1) = _
  rw [h]
  exact pointers_take _ c

theorem refs_unref {s : St} {c : Conn} (h : s.refs = pointers s.defaultConn (some c)) :
    (s.unref c).refs = pointers s.defaultConn none := by
  change Function.update s.refs c (s.refs c - 1) = _
  rw [h]
  exact pointers_give _ c

/-! ### What a step of the cleanup does -/

/-- The places before the connection and the group are looked at. -/
def Place.Early : Place → Prop
  | .disable _ | .disabling _ | .disableWait _ | .disableError _ | .release _ | .releasing _
  | .released _ | .releaseWait _ | .releaseError _ | .disconnect | .disconnectLock => True
  | _ => False

/-- The steps of the cleanup from a place. -/
inductive Cleans (s : St) (err : ℤ) : Place → St → Prop
  | stop : Cleans s err .stop { s with txActive := false, worker := .cleanup (.disable 0) err }
  | onward {place place' : Place} {err' e : ℤ} {d r : ℕ} : place.Early → place'.Early →
      Cleans s err place { s with
        worker := .cleanup place' err', opError := e, semDisabled := d, semReleased := r }
  | absent : s.defaultConn = none →
      Cleans s err .disconnect (s.goto (.cleanup (.attached 0) err))
  | nothing : s.defaultConn = none → Cleans s err .disconnectLock
      { s with semDisconnected := 1, worker := .cleanup .disconnectWait err }
  | disconnecting {c : Conn} : s.defaultConn = some c →
      Cleans s err .disconnectLock ((s.ref c).goto (.cleanup (.disconnecting c) err))
  | asked {c : Conn} :
      Cleans s err (.disconnecting c) ((s.unref c).goto (.cleanup .disconnectWait err))
  | refused {c : Conn} {err' : ℤ} : err' ≠ 0 →
      Cleans s err (.disconnecting c) ((s.unref c).goto (.cleanup (.attached 0) err'))
  | disconnected : 0 < s.semDisconnected → Cleans s err .disconnectWait
      { s with semDisconnected := s.semDisconnected - 1, worker := .cleanup (.attached 0) err }
  | late {err' : ℤ} : err' ≠ 0 →
      Cleans s err .disconnectWait (s.goto (.cleanup (.attached 0) err'))
  | still {i : ℕ} {err' : ℤ} : err' ≠ 0 →
      Cleans s err (.attached i) (s.goto (.cleanup .unref err'))
  | detached {i : ℕ} : s.attached i = false →
      Cleans s err (.attached i) (s.goto (.cleanup (.attached (i + 1)) err))
  | allDetached {i : ℕ} : maxStreams ≤ i →
      Cleans s err (.attached i) (s.goto (.cleanup .groupDelete err))
  | groupless : s.group = false → Cleans s err .groupDelete (s.goto (.cleanup .unref err))
  | deleting : s.group = true → Cleans s err .groupDelete (s.goto (.cleanup .groupDeleting err))
  | deleted : Cleans s err .groupDeleting
      { s with groups := s.groups - 1, worker := .cleanup .groupDeleted err }
  | kept {err' : ℤ} : err' ≠ 0 → Cleans s err .groupDeleting (s.goto (.cleanup .unref err'))
  | forgotten : Cleans s err .groupDeleted
      { s with group := false, worker := .cleanup .unref err }
  | unowned : s.connOwned = false → Cleans s err .unref (s.goto (.cleanup .reset err))
  | lost : s.defaultConn = none → Cleans s err .unref
      { s with connOwned := false, worker := .cleanup .reset err }
  | taken {c : Conn} : s.defaultConn = some c → Cleans s err .unref
      { s with connOwned := false, defaultConn := none, worker := .cleanup (.unrefConn c) err }
  | unref {c : Conn} : Cleans s err (.unrefConn c) ((s.unref c).goto (.cleanup .reset err))
  | reset : Cleans s err .reset
      { s with
        opError := 0, semDisabled := 0, semReleased := 0, semDisconnected := 0
        worker := .idle err }

theorem first_ne {err ret : ℤ} (h : ret ≠ 0) : (if err = 0 then ret else err) ≠ 0 := by
  split_ifs with herr
  · exact h
  · exact herr

theorem cleans_of_clean {s s' : St} {place : Place} {err : ℤ} {a : Answer}
    (h : s.clean err place a = some s') : Cleans s err place s' := by
  -- the places of the cleanup in the order of the source
  cases place <;> cases a <;> simp only [St.clean, St.wait, St.then', reduceCtorEq] at h
  case stop.go => exact Option.some.inj h ▸ .stop
  case disable.go | release.go =>
    split_ifs at h <;> exact Option.some.inj h ▸ .onward trivial trivial
  case disabling.go | disableError.go | releaseError.go =>
    exact Option.some.inj h ▸ .onward trivial trivial
  case disabling.returned | releasing.returned =>
    split_ifs at h <;> exact Option.some.inj h ▸ .onward trivial trivial
  case disableWait.taken | disableWait.expired | releaseWait.taken | releaseWait.expired =>
    split_ifs at h <;> exact Option.some.inj h ▸ .onward trivial trivial
  case releasing.go | released.go =>
    split_ifs at h <;> exact Option.some.inj h ▸ .onward trivial trivial
  case disconnect.go =>
    split_ifs at h with hconn
    · exact Option.some.inj h ▸ .absent hconn
    · exact Option.some.inj h ▸ .onward trivial trivial
  case disconnectLock.go =>
    split at h
    next hconn => exact Option.some.inj h ▸ .nothing hconn
    next hconn => exact Option.some.inj h ▸ .disconnecting hconn
  case disconnecting.returned =>
    split at h
    · exact Option.some.inj h ▸ .asked
    next hret => exact Option.some.inj h ▸ .refused (first_ne hret)
  case disconnectWait.taken =>
    split at h
    next hsem => exact Option.some.inj h ▸ .disconnected hsem
    · cases h
  case disconnectWait.expired => exact Option.some.inj h ▸ .late (first_ne (by decide))
  case attached.go =>
    split at h
    · split at h
      · exact Option.some.inj h ▸ .still (first_ne (by decide))
      next hattached => exact Option.some.inj h ▸ .detached (by simpa using hattached)
    next hi => exact Option.some.inj h ▸ .allDetached (not_lt.1 hi)
  case groupDelete.go =>
    split at h
    next hgroup => exact Option.some.inj h ▸ .deleting hgroup
    next hgroup => exact Option.some.inj h ▸ .groupless (by simpa using hgroup)
  case groupDeleting.returned =>
    split at h
    · exact Option.some.inj h ▸ .deleted
    next hret => exact Option.some.inj h ▸ .kept (first_ne hret)
  case groupDeleted.go => exact Option.some.inj h ▸ .forgotten
  case unref.go =>
    split at h
    · split at h
      next hconn => exact Option.some.inj h ▸ .lost hconn
      next hconn => exact Option.some.inj h ▸ .taken hconn
    next howned => exact Option.some.inj h ▸ .unowned (by simpa using howned)
  case unrefConn.go => exact Option.some.inj h ▸ .unref
  case reset.go => exact Option.some.inj h ▸ .reset

/-- Nothing is held, deleted or known at an early place, and TX is stopped. -/
theorem Place.Early.plain {place : Place} (h : place.Early) (err : ℤ) :
    (Pc.cleanup place err).held = none ∧ (Pc.cleanup place err).deleting = none ∧
      (Pc.cleanup place err).checked = 0 ∧ ¬(Pc.cleanup place err).Ungrouped ∧
      ¬(Pc.cleanup place err).Disowned ∧ (Pc.cleanup place err).Quiet := by
  cases place <;> first | exact h.elim | exact ⟨rfl, rfl, rfl, id, id, trivial⟩

/-! ### Nothing is lost -/

theorem lt_of_unref {err : ℤ} {i : ℕ} (h : i < (Pc.cleanup .unref err).checked) :
    i < maxStreams := by
  simp only [Pc.checked] at h
  split_ifs at h
  · exact h
  · exact absurd h (Nat.not_lt_zero i)

theorem Owned.clean {s s' : St} {place : Place} {err : ℤ} (h : Owned s)
    (hworker : s.worker = .cleanup place err) (hstep : Cleans s err place s') : Owned s' := by
  obtain ⟨hrefs, hgroups, hgroup, -, hdetached, hungrouped, hdisowned, hquiet, -⟩ := h
  rw [hworker] at hrefs hgroups hgroup hdetached hungrouped hdisowned hquiet
  cases hstep
  case onward place' err' _ _ _ hplace' hplace =>
    obtain ⟨hheld, hdeleting, -, -, -, htx⟩ := hplace.plain err
    obtain ⟨hheld', hdeleting', hchecked', hungrouped', hdisowned', -⟩ := hplace'.plain err'
    refine ⟨?_, ?_, fun hne => absurd hdeleting' hne, nofun, ?_, fun hun => absurd hun hungrouped',
      fun hdis => absurd hdis hdisowned', fun _ => hquiet htx, nofun⟩
    · rw [hrefs, hheld]
      exact congrArg _ hheld'.symm
    · rw [hgroups, hdeleting]
      simp [hdeleting']
    · intro i hi
      exact absurd (hchecked' ▸ hi) (Nat.not_lt_zero i)
  case disconnecting c hconn =>
    exact ⟨refs_ref hrefs c, hgroups, hgroup, nofun, hdetached, hungrouped, hdisowned, hquiet,
      nofun⟩
  case asked | refused | unref =>
    exact ⟨refs_unref hrefs, hgroups, hgroup, nofun, hdetached, hungrouped, hdisowned, hquiet,
      nofun⟩
  case detached i hi =>
    refine ⟨hrefs, hgroups, hgroup, nofun, fun j hj => ?_, hungrouped, hdisowned, hquiet, nofun⟩
    rcases Nat.lt_succ_iff_lt_or_eq.1 hj with hj | rfl
    · exact hdetached j hj
    · exact hi
  case allDetached i hi =>
    exact ⟨hrefs, hgroups, hgroup, nofun, fun j hj => hdetached j (lt_of_lt_of_le hj hi),
      hungrouped, hdisowned, hquiet, nofun⟩
  case groupless hgroupless =>
    exact ⟨hrefs, hgroups, nofun, nofun, fun i hi => hdetached i (lt_of_unref hi),
      fun _ => hgroupless, nofun, hquiet, nofun⟩
  case forgotten =>
    refine ⟨hrefs, ?_, nofun, nofun, fun i hi => hdetached i (lt_of_unref hi), fun _ => rfl, nofun,
      hquiet, nofun⟩
    simpa [Pc.deleting] using hgroups
  case taken c hconn =>
    -- the pointer goes from the backend to the thread
    refine ⟨?_, hgroups, nofun, nofun, hdetached, hungrouped, fun _ => rfl, hquiet, nofun⟩
    rw [hrefs, hconn]
    exact pointers_comm _ _
  all_goals
    constructor <;>
      simp_all [St.goto, Pc.held, Pc.deleting, Pc.checked, Pc.Ungrouped, Pc.Disowned, Pc.Quiet]

theorem Owned.drop {s : St} (h : Owned s) {conn : Conn} (hconn : s.defaultConn = some conn) {e : ℤ}
    {t : ℕ} : Owned { s with
      defaultConn := none, opError := e, semDisconnected := t
      refs := Function.update s.refs conn (s.refs conn - 1) } := by
  refine { h with refs := ?_, connecting := fun _ => rfl }
  change Function.update s.refs conn (s.refs conn - 1) = pointers none s.worker.held
  rw [h.refs, hconn, pointers_comm _ s.worker.held, pointers_give, pointers_comm]

theorem Owned.recordError {s : St} (h : Owned s) (err : ℤ) : Owned (s.recordError err) := by
  unfold St.recordError
  split_ifs
  · exact { h with }
  · exact h

theorem Owned.connectedCb {s : St} (h : Owned s) (conn : Conn) (err : ℕ) :
    Owned (s.connectedCb conn err) := by
  unfold St.connectedCb
  split_ifs with hconn herr
  · unfold St.recordError St.unref
    split_ifs
    · exact h.drop hconn
    · exact h.drop hconn
  · exact h
  · exact h.recordError _

theorem Owned.disconnectedCb {s : St} (h : Owned s) (conn : Conn) :
    Owned (s.disconnectedCb conn) := by
  unfold St.disconnectedCb
  split_ifs with hconn
  · exact h.drop hconn
  · exact h

theorem Owned.next {s s' : St} {a : Action} (h : Owned s) (hnext : next s a = some s') :
    Owned s' := by
  obtain ⟨hrefs, hgroups, hgroup, hgroupless, hdetached, hungrouped, hdisowned, hquiet,
    hconnecting⟩ := id h
  cases a with
  | shape mode =>
    simp only [Backend.next] at hnext
    split at hnext
    · exact Option.some.inj hnext ▸ { h with }
    · cases hnext
  | connected conn err => exact Option.some.inj hnext ▸ h.connectedCb conn err
  | disconnected conn => exact Option.some.inj hnext ▸ h.disconnectedCb conn
  | detach i =>
    obtain rfl := Option.some.inj hnext
    refine { h with detached := fun j hj => ?_ }
    change Function.update s.attached i false j = false
    rcases eq_or_ne j i with rfl | hne
    · rw [Function.update_self]
    · rw [Function.update_of_ne hne]
      exact hdetached j hj
  | disabled | released => exact Option.some.inj hnext ▸ { h with }
  | fails err => exact Option.some.inj hnext ▸ h.recordError err
  | clean a =>
    simp only [Backend.next] at hnext
    split at hnext
    next place err hworker => exact h.clean hworker (cleans_of_clean hnext)
    · cases hnext
  | kickConnect =>
    simp only [Backend.next] at hnext
    split at hnext
    next ret hworker =>
      rw [hworker] at hrefs hgroups hgroup hdetached hungrouped hdisowned hquiet
      split at hnext
      next hnone =>
        obtain rfl := Option.some.inj hnext
        exact ⟨hrefs, hgroups, nofun, nofun, nofun, nofun, hdisowned, hquiet, fun _ => hnone⟩
      · obtain rfl := Option.some.inj hnext
        exact ⟨hrefs, hgroups, nofun, nofun, nofun, nofun, nofun, nofun, nofun⟩
    · cases hnext
  | create a =>
    cases a with
    | created c =>
      simp only [Backend.next] at hnext
      split_ifs at hnext with hworker
      obtain rfl := Option.some.inj hnext
      have hnone : s.defaultConn = none := hconnecting hworker.1
      rw [hworker.1] at hrefs hgroups hdisowned hquiet
      refine ⟨?_, hgroups, nofun, nofun, nofun, nofun, hdisowned, hquiet, nofun⟩
      change Function.update s.refs c (s.refs c + 1) = pointers (some c) none
      rw [hrefs, hnone]
      exact (pointers_take none c).trans (pointers_comm _ _)
    | returned ret =>
      simp only [Backend.next] at hnext
      split_ifs at hnext with hworker
      obtain rfl := Option.some.inj hnext
      rw [hworker.1] at hrefs hgroups
      exact ⟨hrefs, hgroups, nofun, nofun, nofun, nofun, nofun, nofun, nofun⟩
    | go | taken | expired => cases hnext
  | connectReturns ok =>
    simp only [Backend.next] at hnext
    split at hnext
    next hworker =>
      rw [hworker] at hrefs hgroups
      cases ok
      · obtain rfl := Option.some.inj hnext
        exact ⟨hrefs, hgroups, nofun, nofun, nofun, nofun, nofun, nofun, nofun⟩
      · obtain rfl := Option.some.inj hnext
        exact ⟨hrefs, hgroups, nofun, nofun, nofun, nofun, nofun, nofun, nofun⟩
    · cases hnext
  | hold op skip =>
    simp only [Backend.next] at hnext
    split at hnext
    next hworker =>
      rw [hworker] at hrefs hgroups
      split at hnext
      · obtain rfl := Option.some.inj hnext
        exact { h with }
      next c hconn =>
        obtain rfl := Option.some.inj hnext
        refine ⟨refs_ref hrefs c, hgroups, nofun, fun c' heq => ?_, nofun, nofun, nofun, nofun,
          nofun⟩
        -- the group was looked at with the reference
        obtain ⟨rfl, -, hskip⟩ := Pc.holding.inj heq
        have hgroup : s.group = false := by simpa using (Bool.or_eq_false_iff.1 hskip).2
        exact hgroup
    · cases hnext
  | attach i =>
    simp only [Backend.next] at hnext
    split at hnext
    next c hworker =>
      split_ifs at hnext
      obtain rfl := Option.some.inj hnext
      have hchecked : s.worker.checked = 0 := by rw [hworker]; rfl
      exact { h with detached := fun j hj => absurd (hchecked ▸ hj) (Nat.not_lt_zero j) }
    · cases hnext
  | createGroup =>
    simp only [Backend.next] at hnext
    split at hnext
    next c hworker =>
      obtain rfl := Option.some.inj hnext
      have hnone : s.group = false := hgroupless c hworker
      rw [hworker] at hrefs hgroups
      refine ⟨hrefs, ?_, nofun, nofun, nofun, nofun, nofun, nofun, nofun⟩
      change s.groups + 1 = _
      rw [hgroups, hnone]
      rfl
    · cases hnext
  | letGo =>
    simp only [Backend.next] at hnext
    split at hnext
    next op c skip hworker =>
      obtain rfl := Option.some.inj hnext
      rw [hworker] at hrefs hgroups
      exact ⟨refs_unref hrefs, hgroups, nofun, nofun, nofun, nofun, nofun, nofun, nofun⟩
    · cases hnext
  | startTx =>
    simp only [Backend.next] at hnext
    split_ifs at hnext with hworker
    obtain rfl := Option.some.inj hnext
    exact { h with quiet := fun hq => by rw [hworker] at hq; exact hq.elim }
  | cleanup =>
    simp only [Backend.next] at hnext
    split at hnext
    next ret hworker =>
      obtain rfl := Option.some.inj hnext
      rw [hworker] at hrefs hgroups
      exact ⟨hrefs, hgroups, nofun, nofun, nofun, nofun, nofun, nofun, nofun⟩
    next hworker =>
      obtain rfl := Option.some.inj hnext
      rw [hworker] at hrefs hgroups
      exact ⟨hrefs, hgroups, nofun, nofun, nofun, nofun, nofun, nofun, nofun⟩
    · cases hnext

theorem owned_of_reachable {s : St} (h : machine.Reachable s) : Owned s := by
  refine h.invariant ?_ fun s a s' hs hnext => hs.next hnext
  rintro _ rfl
  exact ⟨funext fun c => by simp [pointers, St.boot, Pc.held], rfl, nofun, nofun, fun _ _ => rfl,
    fun _ => rfl, fun _ => rfl, fun _ => rfl, nofun⟩

/-- **Every reference and every group is accounted for**, wherever the thread and the callbacks
stand: a connection has one reference for the pointer of the backend and one for the operation that
works on it, no pointer to a group is lost or left behind, the stack is asked to delete a group only
when no stream is attached, and TX and the connection of the app end with every cleanup. -/
theorem backend_owned {s : St} (h : machine.Reachable s) :
    (∀ c, s.refs c = (if s.defaultConn = some c then 1 else 0) +
      if s.worker.held = some c then 1 else 0) ∧
    s.groups = (if s.group ∧ s.worker.deleting ≠ some true then 1 else 0) ∧
    (s.worker.deleting ≠ none → s.group ∧ ∀ i < maxStreams, s.attached i = false) ∧
    (∀ err, s.worker = .idle err → s.connOwned = false ∧ s.txActive = false) := by
  have howned := owned_of_reachable h
  refine ⟨fun c => congrFun howned.refs c, howned.groups, fun hne => ⟨howned.group hne, ?_⟩,
    fun err hidle => ⟨howned.disowned (hidle ▸ trivial), howned.quiet (hidle ▸ trivial)⟩⟩
  have hchecked : s.worker.checked = maxStreams := by
    revert hne
    unfold Pc.deleting
    split
    next hworker => rw [hworker]; exact fun _ => rfl
    next hworker => rw [hworker]; exact fun _ => rfl
    · exact fun hne => absurd rfl hne
  exact fun i hi => howned.detached i (hchecked.symm ▸ hi)

/-! ### What a cleanup gives back -/

/-- A segment begins behind a cleanup that succeeded. -/
def Resumes (s : St) (a : Action) : Prop := a = .kickConnect → s.worker = .idle 0

instance (s : St) (a : Action) : Decidable (Resumes s a) :=
  inferInstanceAs (Decidable (a = .kickConnect → s.worker = .idle 0))

/-- The connection is given up here. -/
def Pc.Gone : Pc → Prop
  | .cleanup (.attached _) err | .cleanup .groupDelete err | .cleanup .groupDeleting err
  | .cleanup .groupDeleted err | .cleanup .unref err | .cleanup .reset err | .idle err => err = 0
  | .cleanup (.unrefConn _) _ | .connecting => True
  | _ => False

/-- No token of a disconnection can be left here. -/
def Pc.Clear : Pc → Prop
  | .idle err => err = 0
  | .connecting => True
  | _ => False

/-- A token of a disconnection is one of the connection that is there no more. -/
structure Fresh (s : St) : Prop where
  token : s.defaultConn ≠ none → s.semDisconnected = 0
  gone : s.worker.Gone → s.defaultConn = none
  clear : s.worker.Clear → s.semDisconnected = 0

theorem Pc.Clear.gone {pc : Pc} (h : pc.Clear) : pc.Gone := by
  cases pc with
  | idle => exact h
  | connecting => trivial
  | _ => exact h.elim

theorem Place.Early.not_gone {place : Place} (h : place.Early) (err : ℤ) :
    ¬(Pc.cleanup place err).Gone := by
  cases place <;> first | exact h.elim | exact id

theorem Fresh.clean {s s' : St} {place : Place} {err : ℤ} (h : Fresh s)
    (hworker : s.worker = .cleanup place err) (hstep : Cleans s err place s') : Fresh s' := by
  obtain ⟨htoken, hgone, -⟩ := h
  rw [hworker] at hgone
  cases hstep with
  | stop => exact ⟨htoken, nofun, nofun⟩
  | onward _ hplace' =>
    exact ⟨htoken, fun hg => absurd hg (hplace'.not_gone _), fun hc =>
      absurd hc.gone (hplace'.not_gone _)⟩
  | absent hnone => exact ⟨htoken, fun _ => hnone, nofun⟩
  | nothing hnone => exact ⟨fun hne => absurd hnone hne, nofun, nofun⟩
  | disconnecting | asked => exact ⟨htoken, nofun, nofun⟩
  | refused herr | late herr => exact ⟨htoken, fun hg => absurd hg herr, nofun⟩
  | disconnected hsem =>
    -- the token was given when the connection went
    have hnone : s.defaultConn = none := by
      by_contra hne
      exact absurd (htoken hne) hsem.ne'
    exact ⟨fun hne => absurd hnone hne, fun _ => hnone, nofun⟩
  | still herr | kept herr => exact ⟨htoken, fun hg => absurd hg herr, nofun⟩
  | detached | allDetached | groupless | deleting | deleted | forgotten | unowned =>
    exact ⟨htoken, hgone, nofun⟩
  | lost hnone => exact ⟨htoken, fun _ => hnone, nofun⟩
  | taken => exact ⟨fun hne => absurd rfl hne, fun _ => rfl, nofun⟩
  | unref => exact ⟨htoken, fun _ => hgone trivial, nofun⟩
  | reset => exact ⟨fun _ => rfl, hgone, fun _ => rfl⟩

theorem Fresh.recordError {s : St} (h : Fresh s) (err : ℤ) : Fresh (s.recordError err) := by
  unfold St.recordError
  split_ifs
  · exact ⟨h.token, h.gone, h.clear⟩
  · exact h

theorem Fresh.connectedCb {s : St} (h : Fresh s) (conn : Conn) (err : ℕ) :
    Fresh (s.connectedCb conn err) := by
  unfold St.connectedCb
  split_ifs
  · obtain ⟨-, -, hclear⟩ := h.recordError (-eio)
    refine ⟨fun hne => absurd rfl hne, fun _ => rfl, hclear⟩
  · exact h
  · exact h.recordError _

theorem Fresh.disconnectedCb {s : St} (h : Fresh s) (conn : Conn) :
    Fresh (s.disconnectedCb conn) := by
  unfold St.disconnectedCb
  split_ifs with hconn
  · refine ⟨fun hne => absurd rfl hne, fun _ => rfl, fun hclear => ?_⟩
    exact absurd (hconn.symm.trans (h.gone (Pc.Clear.gone hclear))) nofun
  · exact h

theorem Fresh.next {s s' : St} {a : Action} (h : Fresh s) (hok : Resumes s a)
    (hnext : next s a = some s') : Fresh s' := by
  obtain ⟨htoken, hgone, hclear⟩ := id h
  -- a token appears as a connection goes, and none is left where the next one is created
  cases a with
  | connected conn err => exact Option.some.inj hnext ▸ h.connectedCb conn err
  | disconnected conn => exact Option.some.inj hnext ▸ h.disconnectedCb conn
  | detach i | disabled | released =>
    obtain rfl := Option.some.inj hnext
    exact ⟨htoken, hgone, hclear⟩
  | fails err => exact Option.some.inj hnext ▸ h.recordError err
  | clean a =>
    simp only [Backend.next] at hnext
    split at hnext
    next place err hworker => exact h.clean hworker (cleans_of_clean hnext)
    · cases hnext
  | kickConnect =>
    have hworker : s.worker = .idle 0 := hok rfl
    simp only [Backend.next, hworker] at hnext hgone hclear
    -- a kick comes behind a cleanup that succeeded, which left no connection
    have hnone : s.defaultConn = none := hgone rfl
    rw [if_pos hnone] at hnext
    obtain rfl := Option.some.inj hnext
    exact ⟨htoken, fun _ => hnone, fun _ => hclear rfl⟩
  | create a =>
    cases a with
    | created c =>
      simp only [Backend.next] at hnext
      split_ifs at hnext with hworker
      obtain rfl := Option.some.inj hnext
      exact ⟨fun _ => hclear (hworker.1 ▸ trivial), nofun, nofun⟩
    | returned ret =>
      simp only [Backend.next] at hnext
      split_ifs at hnext
      obtain rfl := Option.some.inj hnext
      exact ⟨htoken, nofun, nofun⟩
    | go | taken | expired => cases hnext
  | connectReturns ok =>
    simp only [Backend.next] at hnext
    split at hnext
    · cases ok
      · obtain rfl := Option.some.inj hnext
        exact ⟨htoken, nofun, nofun⟩
      · obtain rfl := Option.some.inj hnext
        exact ⟨htoken, nofun, nofun⟩
    · cases hnext
  | shape mode =>
    simp only [Backend.next] at hnext
    split at hnext
    · exact Option.some.inj hnext ▸ ⟨htoken, hgone, hclear⟩
    · cases hnext
  | attach i =>
    simp only [Backend.next] at hnext
    split at hnext
    · split_ifs at hnext
      exact Option.some.inj hnext ▸ ⟨htoken, hgone, hclear⟩
    · cases hnext
  | startTx =>
    simp only [Backend.next] at hnext
    split_ifs at hnext
    exact Option.some.inj hnext ▸ ⟨htoken, hgone, hclear⟩
  | createGroup | letGo =>
    simp only [Backend.next] at hnext
    split at hnext
    · exact Option.some.inj hnext ▸ ⟨htoken, nofun, nofun⟩
    · cases hnext
  | hold op skip =>
    simp only [Backend.next] at hnext
    split at hnext
    · split at hnext
      · exact Option.some.inj hnext ▸ ⟨htoken, hgone, hclear⟩
      · exact Option.some.inj hnext ▸ ⟨htoken, nofun, nofun⟩
    · cases hnext
  | cleanup =>
    simp only [Backend.next] at hnext
    split at hnext
    · exact Option.some.inj hnext ▸ ⟨htoken, nofun, nofun⟩
    · exact Option.some.inj hnext ▸ ⟨htoken, nofun, nofun⟩
    · cases hnext

/-- **A cleanup that succeeds gives everything back**: behind it the source has no connection, no
reference, no group and no stream, TX is stopped, and no token of a disconnection is left for the
next segment, if every segment begins behind such a cleanup. -/
theorem cleanup_ok {s : St} (h : machine.ReachableBy Resumes s) (hidle : s.worker = .idle 0) :
    s.defaultConn = none ∧ (∀ c, s.refs c = 0) ∧ s.group = false ∧ s.groups = 0 ∧
      (∀ i < maxStreams, s.attached i = false) ∧ s.connOwned = false ∧ s.txActive = false ∧
      s.semDisconnected = 0 := by
  have howned := owned_of_reachable h.reachable
  have hfresh : Fresh s := by
    refine h.invariant ?_ fun s a s' hs hok hnext => hs.next hok hnext
    rintro _ rfl
    exact ⟨fun _ => rfl, fun _ => rfl, fun _ => rfl⟩
  obtain ⟨hrefs, hgroups, -, -, hdetached, hungrouped, hdisowned, hquiet, -⟩ := howned
  rw [hidle] at hrefs hgroups hdetached hungrouped hdisowned hquiet
  have hnone : s.defaultConn = none := hfresh.gone (hidle ▸ rfl)
  have hgroup : s.group = false := hungrouped rfl
  refine ⟨hnone, fun c => ?_, hgroup, ?_, hdetached, hdisowned trivial, hquiet trivial,
    hfresh.clear (hidle ▸ rfl)⟩
  · rw [hrefs, hnone]
    rfl
  · rw [hgroups, hgroup]
    rfl

/-- A segment with one stream, and its cleanup up to the group. -/
def segment : List Action :=
  [.shape (some .mono), .kickConnect, .create (.created 7), .connected 7 0, .connectReturns true,
    .hold .configure false, .attach 0, .letGo, .hold .qos false, .createGroup, .letGo, .startTx,
    .cleanup, .clean .go, .clean .go, .clean (.returned 0), .disabled, .clean .taken, .clean .go,
    .clean .go, .clean .go, .clean (.returned 0), .detach 0, .clean .go, .clean .go, .clean .go,
    .clean .go, .clean .go, .clean (.returned 0), .disconnected 7, .clean .taken, .clean .go,
    .clean .go, .clean .go, .clean .go]

theorem backend_owned_segment :
    ∃ s, machine.Reachable s ∧ s.worker = .cleanup .groupDeleting 0 ∧ s.refs 7 = 0 ∧
      s.groups = 1 ∧ s.group ∧ ∀ i < maxStreams, s.attached i = false := by
  have hrun : (machine.run .boot segment).map (fun s => (s.worker, s.refs 7, s.groups)) =
      some (.cleanup .groupDeleting 0, 0, 1) := by
    decide +kernel
  obtain ⟨s, hrun, hs⟩ := Option.map_eq_some_iff.1 hrun
  obtain ⟨hworker, hs⟩ := Prod.mk.inj hs
  obtain ⟨hrefs, hgroups⟩ := Prod.mk.inj hs
  have h₀ : machine.Reachable .boot := .init rfl
  obtain ⟨-, -, hdeleting, -⟩ := backend_owned (h₀.run hrun)
  obtain ⟨hgroup, hdetached⟩ := hdeleting (by rw [hworker]; exact nofun)
  exact ⟨s, h₀.run hrun, hworker, hrefs, hgroups, hgroup, hdetached⟩

theorem cleanup_ok_segment :
    ∃ s, machine.ReachableBy Resumes s ∧ s.worker = .idle 0 ∧ s.defaultConn = none ∧
      s.groups = 0 := by
  have hrun : (machine.runBy Resumes .boot
      (segment ++ [.clean (.returned 0), .clean .go, .clean .go, .clean .go])).map St.worker =
        some (.idle 0) := by
    decide +kernel
  obtain ⟨s, hrun, hidle⟩ := Option.map_eq_some_iff.1 hrun
  have h₀ : machine.ReachableBy Resumes .boot := .init rfl
  obtain ⟨hconn, -, -, hgroups, -⟩ := cleanup_ok (h₀.runBy hrun) hidle
  exact ⟨s, h₀.runBy hrun, hidle, hconn, hgroups⟩

end Backend

end Hil

end LeAudioReceiver
