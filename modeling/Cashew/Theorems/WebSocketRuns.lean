import Cashew.Gateway.WebSocketHandler

/-!
# What a WebSocket handler delivers and keeps

A connection is made in the state `CONNECTING`, and no call sets another state than
`CLOSED`. So in no run does a frame reach the message handler or a message a connection
(`nothing_delivered`). The limits of the handler hold for the connections and, as far as
their objects are still held, for the subscriptions (`limits_kept`).
-/

namespace Cashew.Theorems.WebSocketRuns

open Cashew Cashew.Lib WebSocketHandler

/-! ## No connection is ever open -/

/-- Every connection waits or is closed. -/
def NoneOpen (h : WebSocketHandler) : Prop :=
  ∀ conn ∈ h.objects, conn.state = .connecting ∨ conn.state = .closed

/-- Nothing has been received. -/
structure Idle (h : WebSocketHandler) : Prop where
  noneOpen : NoneOpen h
  messages : h.stats.totalMessagesReceived = 0
  bytes : h.stats.totalBytesReceived = 0

theorem isAlive_eq_false {conn : WsConnection}
    (h : conn.state = .connecting ∨ conn.state = .closed) : conn.isAlive = false := by
  unfold WsConnection.isAlive
  rcases h with hstate | hstate
  · simp [hstate]
  · simp [hstate]

theorem aliveAt_eq_false {h : WebSocketHandler} (hidle : NoneOpen h) (conn : WsRef) :
    h.aliveAt conn = false := by
  unfold aliveAt
  cases hfind : h.objects[conn]? with
  | none => rfl
  | some object => exact isAlive_eq_false (hidle object (List.mem_of_getElem? hfind))

/-- Closing a connection opens none. -/
theorem noneOpen_modify_close {objects : List WsConnection} (conn : WsRef)
    (h : ∀ object ∈ objects, object.state = .connecting ∨ object.state = .closed) :
    ∀ object ∈ objects.modify conn WsConnection.close,
      object.state = .connecting ∨ object.state = .closed := by
  intro object hobject
  obtain ⟨i, hi⟩ := List.mem_iff_getElem?.mp hobject
  rw [List.getElem?_modify] at hi
  obtain ⟨before, hbefore, rfl⟩ := Option.map_eq_some_iff.mp hi
  have hstate := h before (List.mem_of_getElem? hbefore)
  by_cases hplace : conn = i
  · rw [if_pos hplace]
    unfold WsConnection.close
    split
    · exact hstate
    · exact .inr rfl
  · rw [if_neg hplace]
    exact hstate

theorem sendTexts_of_noneOpen {h : WebSocketHandler} (hidle : NoneOpen h) (message : Text)
    (conns : List WsRef) (now : Nat → TimePoint) : h.sendTexts now message conns = (h, []) := by
  induction conns with
  | nil => rfl
  | cons conn rest ih =>
    unfold sendTexts
    rw [aliveAt_eq_false hidle]
    exact ih

/-- The round of the keepalive loop takes every connection out of the table. -/
theorem keepConnections_of_noneOpen (entries : List (Text × WsRef)) :
    ∀ {h : WebSocketHandler} (now : Nat → TimePoint), NoneOpen h →
      (∀ e ∈ entries, e.2 < h.objects.length) →
      h.keepConnections now entries =
        ({ h with connections := (entries.map Prod.fst).foldl OrdMap.erase h.connections },
          []) := by
  induction entries with
  | nil => exact fun _ _ _ => rfl
  | cons entry rest ih =>
    intro h now hidle hmade
    obtain ⟨connId, conn⟩ := entry
    have hlt : conn < h.objects.length := hmade (connId, conn) List.mem_cons_self
    have halive := isAlive_eq_false (hidle _ (List.getElem_mem hlt))
    unfold keepConnections
    rw [List.getElem?_eq_getElem hlt]
    simp only [halive, Bool.not_false, if_true]
    exact ih (h := { h with connections := h.connections.erase connId }) _ hidle
      fun e he => hmade e (List.mem_cons_of_mem _ he)

/-! ## Calls that take on nothing -/

theorem lockable_iff {h : WebSocketHandler} {conn : WsRef} :
    h.lockable conn = true ↔
      conn ∈ h.held ∨ ∃ connId, h.connections.find? connId = some conn := by
  unfold lockable
  rw [Bool.or_eq_true, decide_eq_true_eq, List.contains_iff_mem, List.mem_map]
  refine or_congr_right ⟨?_, ?_⟩
  · rintro ⟨⟨connId, conn⟩, hmem, rfl⟩
    exact ⟨connId, OrdMap.mem_entries.mp hmem⟩
  · rintro ⟨connId, hfind⟩
    exact ⟨(connId, conn), OrdMap.mem_entries.mpr hfind, rfl⟩

/-- The number of subscriptions stored. -/
def stored (h : WebSocketHandler) : Nat :=
  (WsEventType.all.map fun type => (h.subscriptions type).length).sum

/-- No object, pointer, connection or subscription is there that was not before. -/
structure Shrinks (h h' : WebSocketHandler) : Prop where
  config : h'.config = h.config
  ids : ∀ conn, h'.idOf conn = h.idOf conn
  held : h'.held ⊆ h.held
  table : ∀ connId conn, h'.connections.find? connId = some conn →
    h.connections.find? connId = some conn
  subscriptions : ∀ type, (h'.subscriptions type).Sublist (h.subscriptions type)
  counted : stored h ≤ h.stats.subscriptionCount → stored h' ≤ h'.stats.subscriptionCount

theorem Shrinks.refl (h : WebSocketHandler) : Shrinks h h :=
  ⟨rfl, fun _ => rfl, fun _ hconn => hconn, fun _ _ hfind => hfind, fun _ => List.Sublist.refl _,
    id⟩

theorem Shrinks.trans {h₁ h₂ h₃ : WebSocketHandler} (h : Shrinks h₁ h₂) (h' : Shrinks h₂ h₃) :
    Shrinks h₁ h₃ where
  config := h'.config.trans h.config
  ids conn := (h'.ids conn).trans (h.ids conn)
  held _ hconn := h.held (h'.held hconn)
  table connId conn hfind := h.table connId conn (h'.table connId conn hfind)
  subscriptions type := (h'.subscriptions type).trans (h.subscriptions type)
  counted hle := h'.counted (h.counted hle)

/-- A call that leaves the subscriptions and their number as they are. -/
theorem Shrinks.of_same {h h' : WebSocketHandler} (hconfig : h'.config = h.config)
    (hids : ∀ conn, h'.idOf conn = h.idOf conn) (hheld : h'.held = h.held)
    (htable : ∀ connId conn, h'.connections.find? connId = some conn →
      h.connections.find? connId = some conn)
    (hsubs : h'.subscriptions = h.subscriptions)
    (hcount : h'.stats.subscriptionCount = h.stats.subscriptionCount) : Shrinks h h' where
  config := hconfig
  ids := hids
  held := by rw [hheld]
  table := htable
  subscriptions type := by rw [hsubs]
  counted hle := by
    unfold stored at hle ⊢
    rw [hsubs, hcount]
    exact hle

theorem idOf_modify {objects : List WsConnection} (conn : WsRef)
    {change : WsConnection → WsConnection}
    (hchange : ∀ object, (change object).connectionId = object.connectionId) (i : WsRef) :
    ((objects.modify conn change)[i]?).map WsConnection.connectionId =
      (objects[i]?).map WsConnection.connectionId := by
  rw [List.getElem?_modify]
  cases objects[i]? with
  | none => rfl
  | some object =>
    by_cases hi : conn = i
    · simp [hi, hchange]
    · simp [hi]

theorem connectionId_send (now : TimePoint) (object : WsConnection) :
    (object.send now).connectionId = object.connectionId := by
  unfold WsConnection.send
  split <;> rfl

theorem connectionId_updateActivity (now : TimePoint) (object : WsConnection) :
    (object.updateActivity now).connectionId = object.connectionId := rfl

theorem connectionId_close (object : WsConnection) :
    object.close.connectionId = object.connectionId := by
  unfold WsConnection.close
  split <;> rfl

theorem shrinks_onConnection (h : WebSocketHandler) (conn : WsRef)
    {change : WsConnection → WsConnection}
    (hchange : ∀ object, (change object).connectionId = object.connectionId) :
    Shrinks h (h.onConnection conn change) :=
  .of_same rfl (idOf_modify conn hchange) rfl (fun _ _ hfind => hfind) rfl rfl

theorem shrinks_erase (h : WebSocketHandler) (connId : Text) :
    Shrinks h { h with connections := h.connections.erase connId } := by
  refine .of_same rfl (fun _ => rfl) rfl (fun j conn hfind => ?_) rfl rfl
  rw [OrdMap.find?_erase] at hfind
  split at hfind
  · cases hfind
  · exact hfind

theorem shrinks_stats (h : WebSocketHandler) (stats : WsStatistics)
    (hcount : stats.subscriptionCount = h.stats.subscriptionCount) :
    Shrinks h { h with stats } :=
  .of_same rfl (fun _ => rfl) rfl (fun _ _ hfind => hfind) rfl hcount

theorem shrinks_sendTexts (message : Text) (conns : List WsRef) :
    ∀ (h : WebSocketHandler) (now : Nat → TimePoint),
      Shrinks h (h.sendTexts now message conns).1 ∧
        (h.sendTexts now message conns).1.subscriptions = h.subscriptions ∧
        (h.sendTexts now message conns).1.stats = h.stats := by
  induction conns with
  | nil => exact fun h _ => ⟨.refl h, rfl, rfl⟩
  | cons conn rest ih =>
    intro h now
    unfold sendTexts
    split
    · obtain ⟨hshrinks, hsubs, hstats⟩ := ih (h.onConnection conn (·.send (now 0)))
        (fun i => now (i + 1))
      exact ⟨(shrinks_onConnection h conn (connectionId_send _)).trans hshrinks, hsubs, hstats⟩
    · exact ih h now

theorem shrinks_broadcastText (h : WebSocketHandler) (now : Nat → TimePoint) (message : Text) :
    Shrinks h (h.broadcastText now message).1 := by
  obtain ⟨hshrinks, _, hstats⟩ := shrinks_sendTexts message (h.connections.entries.map Prod.snd)
    h now
  exact hshrinks.trans (shrinks_stats _ _ (by rw [hstats]))

theorem sum_lengths_le {subs subs' : WsEventType → List WsRef}
    (h : ∀ type, (subs' type).Sublist (subs type)) :
    (WsEventType.all.map fun type => (subs' type).length).sum ≤
      (WsEventType.all.map fun type => (subs type).length).sum :=
  List.sum_le_sum fun type _ => (h type).length_le

theorem shrinks_broadcastEvent (h : WebSocketHandler) (now : Nat → TimePoint) (type : WsEventType)
    (eventData : Text) : Shrinks h (h.broadcastEvent now type eventData).1 := by
  obtain ⟨hshrinks, _, _⟩ := shrinks_sendTexts (eventMessage type eventData)
    ((h.subscriptions type).filter fun conn => h.lockable conn && h.aliveAt conn) h now
  have hsubs : ∀ t, ((h.broadcastEvent now type eventData).1.subscriptions t).Sublist
      (h.subscriptions t) := by
    intro t
    show (Function.update h.subscriptions type _ t).Sublist _
    by_cases ht : t = type
    · subst ht
      rw [Function.update_self]
      exact List.filter_sublist
    · rw [Function.update_of_ne ht]
  exact ⟨hshrinks.config, hshrinks.ids, hshrinks.held, hshrinks.table, hsubs,
    fun hle => (sum_lengths_le hsubs).trans hle⟩

theorem shrinks_handleControlFrame (h : WebSocketHandler) (now : TimePoint) (conn : WsRef)
    (frame : WsFrame) : Shrinks h (h.handleControlFrame now conn frame).1 := by
  unfold handleControlFrame
  split
  · exact shrinks_onConnection h conn (connectionId_send now)
  · dsimp only
    have hclosed := shrinks_onConnection h conn connectionId_close
    split
    · exact hclosed
    · exact hclosed.trans (shrinks_erase _ _)
  · exact .refl h

theorem shrinks_handleFrame (h : WebSocketHandler) (now : Nat → TimePoint) (conn : WsRef)
    (frame : WsFrame) : Shrinks h (h.handleFrame now conn frame).1 := by
  unfold handleFrame
  split
  · exact .refl h
  · have hreceived : Shrinks h { h.onConnection conn (·.updateActivity (now 0)) with
        stats := { h.stats with
          totalMessagesReceived := h.stats.totalMessagesReceived + 1
          totalBytesReceived := h.stats.totalBytesReceived + frame.payload.length } } :=
      (shrinks_onConnection h conn (connectionId_updateActivity (now 0))).trans
        (shrinks_stats _ _ rfl)
    dsimp only
    split_ifs
    · exact hreceived.trans (shrinks_handleControlFrame _ _ _ _)
    · exact hreceived.trans (shrinks_onConnection _ conn connectionId_close)
    · exact hreceived

theorem shrinks_keepConnections (entries : List (Text × WsRef)) :
    ∀ (h : WebSocketHandler) (now : Nat → TimePoint),
      Shrinks h (h.keepConnections now entries).1 := by
  induction entries with
  | nil => exact fun h _ => .refl h
  | cons entry rest ih =>
    intro h now
    obtain ⟨connId, conn⟩ := entry
    unfold keepConnections
    dsimp only
    split
    · exact ih h _
    · split_ifs
      · exact (shrinks_erase h connId).trans (ih _ _)
      · exact ((shrinks_onConnection h conn connectionId_close).trans
          (shrinks_erase _ connId)).trans (ih _ _)
      · exact (shrinks_onConnection h conn (connectionId_send _)).trans (ih _ _)
      · exact ih h _

theorem shrinks_cleanupConnections (h : WebSocketHandler) : Shrinks h h.cleanupConnections where
  config := rfl
  ids _ := rfl
  held _ hconn := hconn
  table _ _ hfind := hfind
  subscriptions _ := List.filter_sublist
  counted hle := (sum_lengths_le fun _ => List.filter_sublist).trans hle

theorem shrinks_keepalive (h : WebSocketHandler) (now : Nat → TimePoint) :
    Shrinks h (h.keepalive now).1 := by
  unfold keepalive
  split
  · exact .refl h
  · exact (shrinks_keepConnections _ h now).trans (shrinks_cleanupConnections _)

theorem shrinks_stop (h : WebSocketHandler) : Shrinks h h.stop := by
  unfold stop
  split
  · refine .of_same rfl ?_ rfl (fun _ _ hfind => nomatch hfind) rfl rfl
    have hfold : ∀ (conns : List WsRef) (objects : List WsConnection) (i : WsRef),
        ((conns.foldl (fun objects conn => objects.modify conn WsConnection.close)
          objects)[i]?).map WsConnection.connectionId =
            (objects[i]?).map WsConnection.connectionId := by
      intro conns
      induction conns with
      | nil => exact fun _ _ => rfl
      | cons _ rest ih =>
        intro objects i
        exact (ih _ i).trans (idOf_modify _ connectionId_close i)
    exact fun i => hfold _ _ i
  · exact .refl h

/-- What is left of a list of subscriptions is a part of it, smaller by one if a
subscription was found. -/
theorem dropSubscriber_spec (h : WebSocketHandler) (connId : Option Text) (conns : List WsRef) :
    (h.dropSubscriber connId conns).1.Sublist conns ∧
      (h.dropSubscriber connId conns).1.length + (h.dropSubscriber connId conns).2.toNat ≤
        conns.length := by
  induction conns with
  | nil => exact ⟨List.Sublist.refl _, Nat.le_refl 0⟩
  | cons conn rest ih =>
    unfold dropSubscriber
    split_ifs
    · exact ⟨List.sublist_cons_self _ _, Nat.le_refl _⟩
    · refine ⟨ih.1.cons_cons _, ?_⟩
      have hle := ih.2
      simp only [List.length_cons]
      omega
    · refine ⟨ih.1.cons _, ?_⟩
      have hle := ih.2
      simp only [List.length_cons]
      omega

/-- One list replaced among all. -/
theorem sum_update (subs : WsEventType → List WsRef) (type : WsEventType) (conns : List WsRef) :
    (WsEventType.all.map fun t => (Function.update subs type conns t).length).sum +
        (subs type).length =
      (WsEventType.all.map fun t => (subs t).length).sum + conns.length := by
  cases type <;> simp [WsEventType.all, Function.update] <;> omega

theorem shrinks_unsubscribe (h : WebSocketHandler) (conn : WsRef) (type : WsEventType) :
    Shrinks h (h.unsubscribe conn type) := by
  obtain ⟨hsub, hlen⟩ := dropSubscriber_spec h (h.idOf conn) (h.subscriptions type)
  refine ⟨rfl, fun _ => rfl, fun _ hconn => hconn, fun _ _ hfind => hfind, ?_, ?_⟩
  · intro t
    show (Function.update h.subscriptions type _ t).Sublist _
    by_cases ht : t = type
    · subst ht
      rw [Function.update_self]
      exact hsub
    · rw [Function.update_of_ne ht]
  · intro hle
    have hsum := sum_update h.subscriptions type
      (h.dropSubscriber (h.idOf conn) (h.subscriptions type)).1
    unfold stored at hle
    show (WsEventType.all.map fun t => (Function.update h.subscriptions type _ t).length).sum ≤
      h.stats.subscriptionCount - _
    omega

/-! ## The limits -/

/-- The live subscriptions of the clients with an id. -/
def clientSubscriptions (h : WebSocketHandler) (connId : Option Text) : Nat :=
  (WsEventType.all.map fun type => (h.subscribersWithId type connId).length).sum

/-- The invariant of a handler. -/
structure Kept (h : WebSocketHandler) : Prop where
  table : ∀ connId conn, h.connections.find? connId = some conn → h.idOf conn = some connId
  held : ∀ conn ∈ h.held, h.idOf conn ≠ none
  made : ∀ type, ∀ conn ∈ h.subscriptions type, h.idOf conn ≠ none
  room : h.connections.entries.length ≤ h.config.maxConnections
  single : ∀ type connId, (h.subscribersWithId type (some connId)).length ≤ 1
  limited : ∀ connId, clientSubscriptions h (some connId) ≤ h.config.maxSubscriptionsPerClient
  counted : stored h ≤ h.stats.subscriptionCount

/-- A map whose bindings all are another map's has no more entries. -/
theorem entries_length_le {m m' : OrdMap Text WsRef}
    (h : ∀ k v, m'.find? k = some v → m.find? k = some v) :
    m'.entries.length ≤ m.entries.length := by
  have hsub : m'.entries ⊆ m.entries := by
    rintro ⟨k, v⟩ hmem
    exact OrdMap.mem_entries.mpr (h k v (OrdMap.mem_entries.mp hmem))
  exact (List.subperm_of_subset m'.entries_nodup hsub).length_le

/-- A filter that lets less through leaves a part. -/
theorem filter_sublist_filter {p q : WsRef → Bool} {conns conns' : List WsRef}
    (hsub : conns'.Sublist conns) (h : ∀ conn ∈ conns', q conn = true → p conn = true) :
    (conns'.filter q).Sublist (conns.filter p) := by
  have hsame : conns'.filter q = (conns'.filter p).filter q := by
    rw [List.filter_filter]
    refine List.filter_congr fun conn hconn => ?_
    by_cases hq : q conn = true
    · simp [hq, h conn hconn hq]
    · simp [hq]
  rw [hsame]
  exact List.filter_sublist.trans (hsub.filter p)

/-- Where no subscription comes in and no object is held again, no more subscriptions
are live. -/
theorem subscribersWithId_sublist {h h' : WebSocketHandler} {type : WsEventType}
    {connId : Option Text} (hsubs : (h'.subscriptions type).Sublist (h.subscriptions type))
    (hlive : ∀ conn ∈ h'.subscriptions type, h'.lockable conn = true → h.lockable conn = true)
    (hids : ∀ conn ∈ h'.subscriptions type, h'.idOf conn = h.idOf conn) :
    (h'.subscribersWithId type connId).Sublist (h.subscribersWithId type connId) := by
  refine filter_sublist_filter hsubs ?_
  intro conn hconn hlocked
  rw [Bool.and_eq_true, hids conn hconn] at hlocked
  rw [Bool.and_eq_true]
  exact ⟨hlive conn hconn hlocked.1, hlocked.2⟩

theorem Kept.shrinks {h h' : WebSocketHandler} (hkept : Kept h) (hshrinks : Shrinks h h') :
    Kept h' := by
  have hlive : ∀ conn, h'.lockable conn = true → h.lockable conn = true := by
    intro conn hlocked
    rw [lockable_iff] at hlocked ⊢
    exact hlocked.imp (hshrinks.held ·) fun ⟨connId, hfind⟩ =>
      ⟨connId, hshrinks.table connId conn hfind⟩
  have hsubs : ∀ type connId, (h'.subscribersWithId type connId).Sublist
      (h.subscribersWithId type connId) := fun type connId =>
    subscribersWithId_sublist (hshrinks.subscriptions type) (fun conn _ => hlive conn)
      fun conn _ => hshrinks.ids conn
  refine ⟨?_, ?_, ?_, ?_, ?_, ?_, hshrinks.counted hkept.counted⟩
  · intro connId conn hfind
    rw [hshrinks.ids]
    exact hkept.table connId conn (hshrinks.table connId conn hfind)
  · intro conn hconn
    rw [hshrinks.ids]
    exact hkept.held conn (hshrinks.held hconn)
  · intro type conn hconn
    rw [hshrinks.ids]
    exact hkept.made type conn ((hshrinks.subscriptions type).subset hconn)
  · rw [hshrinks.config]
    exact (entries_length_le hshrinks.table).trans hkept.room
  · exact fun type connId => (hsubs type (some connId)).length_le.trans (hkept.single type connId)
  · intro connId
    rw [hshrinks.config]
    refine Nat.le_trans ?_ (hkept.limited connId)
    exact List.sum_le_sum fun type _ => (hsubs type (some connId)).length_le

/-- The connections in the table are objects that were made. -/
theorem entries_made {h : WebSocketHandler} (hkept : Kept h) :
    ∀ e ∈ h.connections.entries, e.2 < h.objects.length := by
  rintro ⟨connId, conn⟩ hmem
  have hid := hkept.table connId conn (OrdMap.mem_entries.mp hmem)
  by_contra hge
  rw [idOf, List.getElem?_eq_none (Nat.le_of_not_lt hge)] at hid
  cases hid

/-- Accepting makes an object that no subscription points to. -/
theorem Kept.acceptConnection {h : WebSocketHandler} (hkept : Kept h) (now : TimePoint)
    (connId : Text) : Kept (h.acceptConnection now connId).1 := by
  unfold WebSocketHandler.acceptConnection
  split
  · exact hkept
  · rename_i hroom
    have hold : ∀ conn, h.idOf conn ≠ none →
        conn ≠ h.objects.length ∧ ((h.objects ++ [WsConnection.create connId now])[conn]?).map
          WsConnection.connectionId = h.idOf conn := by
      intro conn hmade
      have hlt : conn < h.objects.length := by
        by_contra hge
        exact hmade (by rw [idOf, List.getElem?_eq_none (Nat.le_of_not_lt hge)]; rfl)
      exact ⟨Nat.ne_of_lt hlt, by rw [List.getElem?_append_left hlt]; rfl⟩
    have hnew : ((h.objects ++ [WsConnection.create connId now])[h.objects.length]?).map
        WsConnection.connectionId = some connId := by
      rw [List.getElem?_concat_length]
      rfl
    dsimp only
    have hsubs : ∀ type c, (WebSocketHandler.subscribersWithId
        { h with
          objects := h.objects ++ [WsConnection.create connId now]
          held := insert h.objects.length h.held
          connections := h.connections.insert connId h.objects.length
          stats := { h.stats with activeConnections := h.stats.activeConnections + 1 } }
        type c).Sublist (h.subscribersWithId type c) := by
      intro type c
      refine subscribersWithId_sublist (List.Sublist.refl _) (fun conn hconn hlocked => ?_)
        fun conn hconn => (hold conn (hkept.made type conn hconn)).2
      have hne := (hold conn (hkept.made type conn hconn)).1
      rw [lockable_iff] at hlocked ⊢
      rcases hlocked with hheld | ⟨j, hfind⟩
      · exact .inl ((Finset.mem_insert.mp hheld).resolve_left hne)
      · replace hfind : (h.connections.insert connId h.objects.length).find? j = some conn := hfind
        rw [OrdMap.find?_insert] at hfind
        split at hfind
        · cases hfind
          exact absurd rfl hne
        · exact .inr ⟨j, hfind⟩
    refine ⟨?_, ?_, ?_, ?_, ?_, ?_, hkept.counted⟩
    · intro j conn hfind
      replace hfind : (h.connections.insert connId h.objects.length).find? j = some conn := hfind
      rw [OrdMap.find?_insert] at hfind
      split at hfind
      · rename_i hj
        cases hfind
        exact hj ▸ hnew
      · have hid := hkept.table j conn hfind
        exact (hold conn (by rw [hid]; exact Option.some_ne_none j)).2.trans hid
    · intro conn hconn
      rcases Finset.mem_insert.mp hconn with rfl | hmem
      · exact fun hnone => Option.some_ne_none connId (hnew.symm.trans hnone)
      · exact fun hnone => hkept.held conn hmem
          ((hold conn (hkept.held conn hmem)).2.symm.trans hnone)
    · intro type conn hconn hnone
      exact hkept.made type conn hconn ((hold conn (hkept.made type conn hconn)).2.symm.trans hnone)
    · show (h.connections.insert connId h.objects.length).entries.length ≤ h.config.maxConnections
      cases hfind : h.connections.find? connId with
      | none =>
        rw [(OrdMap.entries_insert_perm hfind _).length_eq]
        exact Nat.lt_of_not_le hroom
      | some conn =>
        -- the old connection makes room for the new one
        have hkeys : (h.connections.insert connId h.objects.length).entries.map Prod.fst ⊆
            h.connections.entries.map Prod.fst := by
          intro j hj
          obtain ⟨⟨j, v⟩, hmem, rfl⟩ := List.mem_map.mp hj
          have hv := OrdMap.mem_entries.mp hmem
          rw [OrdMap.find?_insert] at hv
          split at hv
          · rename_i heq
            exact List.mem_map.mpr ⟨(connId, conn), OrdMap.mem_entries.mpr hfind, heq⟩
          · exact List.mem_map.mpr ⟨(j, v), OrdMap.mem_entries.mpr hv, rfl⟩
        have hle := (List.subperm_of_subset
          (h.connections.insert connId h.objects.length).keys_nodup hkeys).length_le
        rw [List.length_map, List.length_map] at hle
        omega
    · exact fun type j => (hsubs type (some j)).length_le.trans (hkept.single type j)
    · intro j
      refine Nat.le_trans ?_ (hkept.limited j)
      exact List.sum_le_sum fun type _ => (hsubs type (some j)).length_le

/-- Subscribing is refused to a client that has the subscription or too many. -/
theorem Kept.subscribe {h : WebSocketHandler} (hkept : Kept h) {conn : WsRef}
    (hconn : conn ∈ h.held) (type : WsEventType) : Kept (h.subscribe conn type) := by
  unfold WebSocketHandler.subscribe
  dsimp only
  split_ifs with hhas hfull
  · exact hkept
  · exact hkept
  · obtain ⟨connId, hid⟩ := Option.ne_none_iff_exists'.mp (hkept.held conn hconn)
    rw [not_not] at hhas
    rw [hid] at hhas hfull
    have hlocked : h.lockable conn = true := lockable_iff.mpr (.inl hconn)
    set after : WebSocketHandler :=
      { h with
        subscriptions := Function.update h.subscriptions type (h.subscriptions type ++ [conn])
        stats := { h.stats with subscriptionCount := h.stats.subscriptionCount + 1 } }
      with hafter
    -- the client has the one subscription to the type, and other clients what they had
    have hown : ∀ t, after.subscribersWithId t (some connId) =
        Function.update (fun t => h.subscribersWithId t (some connId)) type [conn] t := by
      intro t
      show (Function.update h.subscriptions type (h.subscriptions type ++ [conn]) t).filter
        (fun conn => h.lockable conn && (h.idOf conn == some connId)) = _
      by_cases ht : t = type
      · subst ht
        rw [Function.update_self, Function.update_self, List.filter_append]
        show h.subscribersWithId t (some connId) ++ _ = _
        rw [hhas]
        simp [hlocked, hid]
      · rw [Function.update_of_ne ht, Function.update_of_ne ht]
        rfl
    have hothers : ∀ t j, j ≠ connId →
        after.subscribersWithId t (some j) = h.subscribersWithId t (some j) := by
      intro t j hj
      show (Function.update h.subscriptions type (h.subscriptions type ++ [conn]) t).filter
        (fun conn => h.lockable conn && (h.idOf conn == some j)) = _
      by_cases ht : t = type
      · subst ht
        rw [Function.update_self, List.filter_append]
        simp [hid, Ne.symm hj, subscribersWithId]
      · rw [Function.update_of_ne ht]
        rfl
    refine ⟨hkept.table, hkept.held, ?_, hkept.room, ?_, ?_, ?_⟩
    · intro t other hother
      replace hother : other ∈ Function.update h.subscriptions type
        (h.subscriptions type ++ [conn]) t := hother
      by_cases ht : t = type
      · subst ht
        rw [Function.update_self] at hother
        rcases List.mem_append.mp hother with hold | hnew
        · exact hkept.made t other hold
        · rw [List.mem_singleton.mp hnew]
          exact hkept.held conn hconn
      · rw [Function.update_of_ne ht] at hother
        exact hkept.made t other hother
    · intro t j
      by_cases hj : j = connId
      · subst hj
        rw [hown]
        by_cases ht : t = type
        · subst ht
          rw [Function.update_self]
          exact Nat.le_refl 1
        · rw [Function.update_of_ne ht]
          exact hkept.single t j
      · rw [hothers t j hj]
        exact hkept.single t j
    · intro j
      unfold clientSubscriptions
      by_cases hj : j = connId
      · subst hj
        have hbefore : (WsEventType.all.map fun t =>
            (h.subscribersWithId t (some j)).length).sum < h.config.maxSubscriptionsPerClient :=
          Nat.lt_of_not_le hfull
        have hsum := sum_update (fun t => h.subscribersWithId t (some j)) type [conn]
        simp only [hhas, List.length_nil, List.length_singleton] at hsum
        simp only [hown]
        show _ ≤ h.config.maxSubscriptionsPerClient
        omega
      · simp only [hothers _ j hj]
        exact hkept.limited j
    · have hsum := sum_update h.subscriptions type (h.subscriptions type ++ [conn])
      have hcounted := hkept.counted
      unfold stored at hcounted
      rw [List.length_append, List.length_singleton] at hsum
      show (WsEventType.all.map fun t => (Function.update h.subscriptions type _ t).length).sum ≤
        h.stats.subscriptionCount + 1
      omega

/-- **One call keeps the invariant.** -/
theorem Kept.call {h : WebSocketHandler} (hkept : Kept h) (now : Nat → TimePoint)
    (input : WsInput) : Kept (h.call now input).1 := by
  cases input with
  | start =>
    exact hkept.shrinks (.of_same rfl (fun _ => rfl) rfl (fun _ _ hfind => hfind) rfl rfl)
  | acceptConnection connId => exact hkept.acceptConnection (now 0) connId
  | handleFrame conn frame =>
    show Kept (if conn ∈ h.held then h.handleFrame now conn frame else (h, [])).1
    split
    · exact hkept.shrinks (shrinks_handleFrame h now conn frame)
    · exact hkept
  | broadcastText message => exact hkept.shrinks (shrinks_broadcastText h now message)
  | broadcastEvent type eventData =>
    exact hkept.shrinks (shrinks_broadcastEvent h now type eventData)
  | subscribe conn type =>
    show Kept (if conn ∈ h.held then h.subscribe conn type else h)
    split
    · rename_i hconn
      exact hkept.subscribe hconn type
    · exact hkept
  | unsubscribe conn type =>
    show Kept (if conn ∈ h.held then h.unsubscribe conn type else h)
    split
    · exact hkept.shrinks (shrinks_unsubscribe h conn type)
    · exact hkept
  | keepalive => exact hkept.shrinks (shrinks_keepalive h now)
  | stop => exact hkept.shrinks (shrinks_stop h)
  | release conn =>
    refine hkept.shrinks ⟨rfl, fun _ => rfl, Finset.erase_subset conn h.held,
      fun _ _ hfind => hfind, fun _ => List.Sublist.refl _, id⟩

theorem fresh_kept (config : WsHandlerConfig) : Kept { config } where
  table _ _ hfind := nomatch hfind
  held _ hconn := absurd hconn (Finset.notMem_empty _)
  made _ _ hconn := nomatch hconn
  room := Nat.zero_le _
  single _ _ := Nat.zero_le _
  limited _ := Nat.zero_le _
  counted := Nat.zero_le _

theorem run_kept (config : WsHandlerConfig) (inputs : List ((Nat → TimePoint) × WsInput)) :
    Kept (webSocketMachine.run { config } inputs).1 :=
  webSocketMachine.run_invariant (fun _ input hkept => hkept.call input.1 input.2)
    (fresh_kept config) inputs

/-- **The limits are kept.** In every run of calls on a handler: the table has at most
`max_connections` connections, each under its own id; a client has at most one live
subscription to an event type and at most `max_subscriptions_per_client` in all, also where
its id has been taken over by other connections; and `subscription_count` is never less
than the subscriptions stored, so that counting one down never goes below zero. -/
theorem limits_kept (config : WsHandlerConfig) (inputs : List ((Nat → TimePoint) × WsInput)) :
    let h := (webSocketMachine.run { config } inputs).1
    h.connections.entries.length ≤ h.config.maxConnections ∧
      (∀ connId conn, h.connections.find? connId = some conn → h.idOf conn = some connId) ∧
      (∀ connId, (∀ type, (h.subscribersWithId type (some connId)).length ≤ 1) ∧
        clientSubscriptions h (some connId) ≤ h.config.maxSubscriptionsPerClient) ∧
      stored h ≤ h.stats.subscriptionCount := by
  intro h
  have hkept : Kept h := run_kept config inputs
  exact ⟨hkept.room, hkept.table, fun connId =>
    ⟨fun type => hkept.single type connId, hkept.limited connId⟩, hkept.counted⟩

/-! ## Nothing is delivered -/

/-- One call of a handler without open connections. -/
theorem Idle.call {h : WebSocketHandler} (hidle : Idle h) (hkept : Kept h)
    (now : Nat → TimePoint) (input : WsInput) :
    Idle (h.call now input).1 ∧ (h.call now input).2 = [] := by
  have hnone := hidle.noneOpen
  cases input with
  | start => exact ⟨⟨hnone, hidle.messages, hidle.bytes⟩, rfl⟩
  | acceptConnection connId =>
    refine ⟨?_, rfl⟩
    show Idle (h.acceptConnection (now 0) connId).1
    -- what is accepted is still connecting, and nothing ever opens it
    unfold WebSocketHandler.acceptConnection
    split
    · exact hidle
    · refine ⟨?_, hidle.messages, hidle.bytes⟩
      intro conn hconn
      rcases List.mem_append.mp hconn with hold | hnew
      · exact hnone conn hold
      · rw [List.mem_singleton.mp hnew]
        exact .inl rfl
  | handleFrame conn frame =>
    show Idle (if conn ∈ h.held then h.handleFrame now conn frame else (h, [])).1 ∧
      (if conn ∈ h.held then h.handleFrame now conn frame else (h, [])).2 = []
    -- a frame is dropped when its connection is not alive
    have hsame : h.handleFrame now conn frame = (h, []) := by
      unfold WebSocketHandler.handleFrame
      rw [aliveAt_eq_false hnone]
      rfl
    rw [hsame, ite_self]
    exact ⟨hidle, rfl⟩
  | broadcastText message =>
    show Idle (h.broadcastText now message).1 ∧ (h.broadcastText now message).2 = []
    unfold WebSocketHandler.broadcastText
    dsimp only
    rw [sendTexts_of_noneOpen hnone]
    exact ⟨⟨hnone, hidle.messages, hidle.bytes⟩, rfl⟩
  | broadcastEvent type eventData =>
    show Idle (h.broadcastEvent now type eventData).1 ∧
      (h.broadcastEvent now type eventData).2 = []
    unfold WebSocketHandler.broadcastEvent
    dsimp only
    rw [sendTexts_of_noneOpen hnone]
    exact ⟨⟨hnone, hidle.messages, hidle.bytes⟩, rfl⟩
  | subscribe conn type =>
    refine ⟨?_, rfl⟩
    show Idle (if conn ∈ h.held then h.subscribe conn type else h)
    unfold WebSocketHandler.subscribe
    dsimp only
    -- subscribing changes the connection's subscriptions at most, never its state
    split_ifs
    · exact hidle
    · exact hidle
    · exact ⟨hnone, hidle.messages, hidle.bytes⟩
    · exact hidle
  | unsubscribe conn type =>
    refine ⟨?_, rfl⟩
    show Idle (if conn ∈ h.held then h.unsubscribe conn type else h)
    split
    · exact ⟨hnone, hidle.messages, hidle.bytes⟩
    · exact hidle
  | keepalive =>
    show Idle (h.keepalive now).1 ∧ (h.keepalive now).2 = []
    unfold WebSocketHandler.keepalive
    split
    · exact ⟨hidle, rfl⟩
    · rw [keepConnections_of_noneOpen _ now hnone (entries_made hkept)]
      exact ⟨⟨hnone, hidle.messages, hidle.bytes⟩, rfl⟩
  -- closing turns every connection into a closed one
  | stop =>
    refine ⟨?_, rfl⟩
    show Idle h.stop
    unfold WebSocketHandler.stop
    split
    · refine ⟨?_, hidle.messages, hidle.bytes⟩
      have hfold : ∀ (conns : List WsRef) (objects : List WsConnection),
          (∀ conn ∈ objects, conn.state = .connecting ∨ conn.state = .closed) →
          ∀ conn ∈ conns.foldl (fun objects conn => objects.modify conn WsConnection.close) objects,
            conn.state = .connecting ∨ conn.state = .closed := by
        intro conns
        induction conns with
        | nil => exact fun _ h => h
        | cons conn rest ih => exact fun objects h => ih _ (noneOpen_modify_close conn h)
      exact hfold _ h.objects hnone
    · exact hidle
  | release conn => exact ⟨⟨hnone, hidle.messages, hidle.bytes⟩, rfl⟩

theorem fresh_idle (config : WsHandlerConfig) : Idle { config } where
  noneOpen _ hconn := nomatch hconn
  messages := rfl
  bytes := rfl

theorem run_idle (config : WsHandlerConfig) (inputs : List ((Nat → TimePoint) × WsInput)) :
    Idle (webSocketMachine.run { config } inputs).1 ∧
      (webSocketMachine.run { config } inputs).2 = [] := by
  have hboth : ∀ h input, Idle h ∧ Kept h →
      Idle (webSocketMachine.step h input).1 ∧ Kept (webSocketMachine.step h input).1 :=
    fun h input hh => ⟨(hh.1.call hh.2 input.1 input.2).1, hh.2.call input.1 input.2⟩
  have hsilent : ∀ h input, Idle h ∧ Kept h → ∀ o ∈ (webSocketMachine.step h input).2, False := by
    intro h input hh o ho
    have hnothing : (h.call input.1 input.2).2 = [] := (hh.1.call hh.2 input.1 input.2).2
    replace ho : o ∈ (h.call input.1 input.2).2 := ho
    rw [hnothing] at ho
    exact absurd ho List.not_mem_nil
  have hstart := And.intro (fresh_idle config) (fresh_kept config)
  refine ⟨(webSocketMachine.run_invariant hboth hstart inputs).1, ?_⟩
  exact List.eq_nil_iff_forall_not_mem.mpr fun o ho =>
    webSocketMachine.run_outputs hboth hsilent hstart inputs o ho

/-- **Nothing is delivered.** In every run of calls on a handler, with any frames, messages
and events: no frame is handed to the message handler and nothing is sent on a connection,
no message counts as received, every connection still waits to be opened or is closed; a
broadcast event leaves its type without subscribers, and a round of the keepalive loop
leaves no connection. -/
theorem nothing_delivered (config : WsHandlerConfig)
    (inputs : List ((Nat → TimePoint) × WsInput)) :
    let h := (webSocketMachine.run { config } inputs).1
    (webSocketMachine.run { config } inputs).2 = [] ∧
      h.stats.totalMessagesReceived = 0 ∧ h.stats.totalBytesReceived = 0 ∧
      (∀ conn ∈ h.objects, conn.state = .connecting ∨ conn.state = .closed) ∧
      (∀ now type eventData,
        (h.broadcastEvent now type eventData).1.subscriptions type = []) ∧
      (h.running = true → ∀ now, (h.keepalive now).1.connections.entries = []) := by
  intro h
  obtain ⟨hidle, hsilent⟩ := run_idle config inputs
  replace hidle : Idle h := hidle
  have hkept : Kept h := run_kept config inputs
  refine ⟨hsilent, hidle.messages, hidle.bytes, hidle.noneOpen, ?_, ?_⟩
  · intro now type eventData
    show Function.update h.subscriptions type _ type = []
    rw [Function.update_self, List.filter_eq_nil_iff]
    intro conn _
    rw [aliveAt_eq_false hidle.noneOpen, Bool.and_false]
    exact Bool.false_ne_true
  · intro hrunning now
    unfold WebSocketHandler.keepalive
    rw [hrunning, keepConnections_of_noneOpen _ now hidle.noneOpen (entries_made hkept)]
    show ((h.connections.entries.map Prod.fst).foldl OrdMap.erase h.connections).entries = []
    refine List.eq_nil_iff_forall_not_mem.mpr ?_
    rintro ⟨connId, conn⟩ hmem
    have hfind := OrdMap.mem_entries.mp hmem
    rw [OrdMap.find?_foldl_erase] at hfind
    split at hfind
    · cases hfind
    · rename_i hnot
      exact hnot (List.mem_map.mpr ⟨(connId, conn), OrdMap.mem_entries.mpr hfind, rfl⟩)

end Cashew.Theorems.WebSocketRuns
