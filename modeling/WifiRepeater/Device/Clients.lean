import WifiRepeater.Dns.Proxy
import WifiRepeater.Lib.KeySlots

/-!
# The addresses of the access point's clients

The device learns a client's address from the DHCP server's event and forgets it when
the client leaves.  It keeps the addresses in a table of `ESP_WIFI_MAX_CONN_NUM` slots
that is searched by MAC address, or by a zero IP address for a free slot.  That is a map
of limited size, and while no more clients have an address than there are slots, it is
the map from each client to its last address.

## Main definitions

* `ClientIpMap`, `handleApStaIpAssigned`, `handleApStaDisconnected`, `apClientsGet` — the
  table and the functions of `ap_clients.c`.
* `ApEvent`, `clientsAfter` — the events, and the table after a sequence of them.
* `lastAssigned`, `holders` — what a history says of a client, and the clients with an
  address.
* `recordedMap` — the map of limited size that the table stands for.

## Main results

* `tracks_clientsAfter` — **the table is that map**, whatever happens.
* `ap_clients_refine_map` — **what is reported of each client.**
-/

namespace WifiRepeater

open Dns (ApClientInfo)

/-- A MAC address. -/
abbrev Mac := Buf 6

/-- `client_ip_map_t`.  Its `last_seen` is never used. -/
structure ClientIpMap where
  /-- `mac`. -/
  mac : Mac
  /-- `ip`, zero in a free slot. -/
  ip : UInt32
  deriving DecidableEq

/-- A cleared slot. -/
def zeroClient : ClientIpMap := ⟨.zero 6, 0⟩

/-- `handle_ap_staipassigned`: the slot with the MAC address, else the first with no IP
address, gets the entry. -/
def handleApStaIpAssigned (clientIps : List ClientIpMap) (mac : Mac) (ip : UInt32) :
    List ClientIpMap :=
  match updateFirst (fun s => s.mac = mac) (fun _ => ⟨mac, ip⟩) clientIps with
  | some clientIps' => clientIps'
  | none => (updateFirst (fun s => s.ip = 0) (fun _ => ⟨mac, ip⟩) clientIps).getD clientIps

/-- `handle_ap_stadisconnected`. -/
def handleApStaDisconnected (clientIps : List ClientIpMap) (mac : Mac) : List ClientIpMap :=
  (updateFirst (fun s => s.mac = mac) (fun _ => zeroClient) clientIps).getD clientIps

/-- `ap_clients_init`, with `maxConn` for `ESP_WIFI_MAX_CONN_NUM`. -/
def apClientsInit (maxConn : ℕ) : List ClientIpMap := List.replicate maxConn zeroClient

/-- One entry of the list `ap_clients_get` fills. -/
def clientInfo (clientIps : List ClientIpMap) (mac : Mac) : ApClientInfo :=
  match clientIps.find? fun s => s.ip ≠ 0 && s.mac = mac with
  | some s => ⟨mac, s.ip, true⟩
  | none => ⟨mac, 0, false⟩

/-- `ap_clients_get`, where the driver lists the stations, or fails. -/
def apClientsGet (maxConn : ℕ) (clientIps : List ClientIpMap) (staList : Option (List Mac)) :
    Option (List ApClientInfo) :=
  staList.map fun stations => (stations.take maxConn).map (clientInfo clientIps)

/-! ### Events -/

/-- What the handlers are registered for. -/
inductive ApEvent
  /-- `IP_EVENT_ASSIGNED_IP_TO_CLIENT`. -/
  | staIpAssigned (mac : Mac) (ip : UInt32)
  /-- `WIFI_EVENT_AP_STADISCONNECTED`. -/
  | staDisconnected (mac : Mac)
  deriving DecidableEq

namespace ApEvent

/-- The client it is about. -/
def mac : ApEvent → Mac
  | staIpAssigned mac _ => mac
  | staDisconnected mac => mac

/-- The address it gives the client. -/
def given : ApEvent → Option UInt32
  | staIpAssigned _ ip => some ip
  | staDisconnected _ => none

/-- Neither of its addresses is zero. -/
def Proper (e : ApEvent) : Prop := e.mac ≠ .zero 6 ∧ ∀ ip ∈ e.given, ip ≠ 0

instance : (e : ApEvent) → Decidable e.Proper
  | staIpAssigned mac ip =>
      decidable_of_iff (mac ≠ .zero 6 ∧ ip ≠ 0) (by simp [Proper, ApEvent.mac, given])
  | staDisconnected mac =>
      decidable_of_iff (mac ≠ .zero 6) (by simp [Proper, ApEvent.mac, given])

/-- What its handler does to the table. -/
def apply (clientIps : List ClientIpMap) : ApEvent → List ClientIpMap
  | staIpAssigned mac ip => handleApStaIpAssigned clientIps mac ip
  | staDisconnected mac => handleApStaDisconnected clientIps mac

/-- What it does to a map of at most `maxConn` clients. -/
def record (maxConn : ℕ) (m : Finmap fun _ : Mac => UInt32) : ApEvent → Finmap fun _ : Mac => UInt32
  | staIpAssigned mac ip => m.capInsert maxConn mac ip
  | staDisconnected mac => m.erase mac

end ApEvent

/-- The table after a sequence of events. -/
def clientsAfter (maxConn : ℕ) (events : List ApEvent) : List ClientIpMap :=
  events.foldl ApEvent.apply (apClientsInit maxConn)

/-- The address a client was last given, if it has not left since. -/
def lastAssigned (events : List ApEvent) (mac : Mac) : Option UInt32 :=
  (events.reverse.find? fun e => e.mac = mac).bind ApEvent.given

/-- The clients with an address. -/
def holders (events : List ApEvent) : List Mac :=
  (events.map ApEvent.mac).dedup.filter fun mac => (lastAssigned events mac).isSome

/-- The map of at most `maxConn` clients after a sequence of events. -/
def recordedMap (maxConn : ℕ) (events : List ApEvent) : Finmap fun _ : Mac => UInt32 :=
  events.foldl (ApEvent.record maxConn) ∅

theorem clientsAfter_snoc (maxConn : ℕ) (events : List ApEvent) (e : ApEvent) :
    clientsAfter maxConn (events ++ [e]) = e.apply (clientsAfter maxConn events) := by
  rw [clientsAfter, List.foldl_append]
  rfl

theorem recordedMap_snoc (maxConn : ℕ) (events : List ApEvent) (e : ApEvent) :
    recordedMap maxConn (events ++ [e]) = e.record maxConn (recordedMap maxConn events) := by
  rw [recordedMap, List.foldl_append]
  rfl

theorem lastAssigned_snoc (events : List ApEvent) (e : ApEvent) (mac : Mac) :
    lastAssigned (events ++ [e]) mac
      = if e.mac = mac then e.given else lastAssigned events mac := by
  unfold lastAssigned
  rw [List.reverse_append, List.reverse_singleton, List.singleton_append, List.find?_cons]
  by_cases h : e.mac = mac <;> simp [h]

/-- A client no event is about has no address. -/
theorem lastAssigned_of_forall_ne {events : List ApEvent} {mac : Mac}
    (h : ∀ e ∈ events, e.mac ≠ mac) : lastAssigned events mac = none := by
  have hnone : events.reverse.find? (fun e => e.mac = mac) = none := by
    rw [List.find?_eq_none]
    intro e he
    simpa using h e (List.mem_reverse.mp he)
  rw [lastAssigned, hnone]
  rfl

/-- The holders are the clients whose last event gave them an address. -/
theorem mem_holders {events : List ApEvent} {mac : Mac} :
    mac ∈ holders events ↔ (lastAssigned events mac).isSome = true := by
  rw [holders, List.mem_filter, List.mem_dedup, and_iff_right_iff_imp]
  intro hsome
  by_contra hno
  have hne : ∀ e ∈ events, e.mac ≠ mac := fun e he heq =>
    hno (List.mem_map.mpr ⟨e, he, heq⟩)
  rw [lastAssigned_of_forall_ne hne] at hsome
  exact absurd hsome (by simp)

theorem nodup_holders (events : List ApEvent) : (holders events).Nodup :=
  (List.nodup_dedup _).filter _

/-! ### The table and its map -/

/-- What a slot holds. -/
def ClientIpMap.entry (s : ClientIpMap) : Option (Mac × UInt32) :=
  if s.ip = 0 then none else some (s.mac, s.ip)

/-- A slot without an IP address has no MAC address either, and conversely. -/
def ClientIpMap.Clean (s : ClientIpMap) : Prop := s.ip = 0 ↔ s.mac = .zero 6

theorem clean_zeroClient : zeroClient.Clean := iff_of_true rfl rfl

/-- The slot found by a MAC address is the one that holds it as its key. -/
theorem holdsKey_entry {s : ClientIpMap} (hs : s.Clean) {mac : Mac} (hmac : mac ≠ .zero 6) :
    KeySlots.holdsKey mac s.entry = decide (s.mac = mac) := by
  unfold ClientIpMap.entry
  split_ifs with hip
  · have hne : s.mac ≠ mac := fun heq => hmac (heq ▸ hs.mp hip)
    simp [KeySlots.holdsKey, hne]
  · simp [KeySlots.holdsKey]

/-- The slot found by its zero address is a free one. -/
theorem isNone_entry (s : ClientIpMap) : s.entry.isNone = decide (s.ip = 0) := by
  unfold ClientIpMap.entry
  split_ifs with hip <;> simp [hip]

/-- The search of `ap_clients_get` is the search by key. -/
theorem lookup_entries (t : List ClientIpMap) (mac : Mac) :
    KeySlots.lookup mac (t.map ClientIpMap.entry)
      = (t.find? fun s => s.ip ≠ 0 && s.mac = mac).map ClientIpMap.ip := by
  unfold KeySlots.lookup
  induction t with
  | nil => rfl
  | cons s t ih =>
    rw [List.map_cons, List.findSome?_cons, List.find?_cons, ih]
    unfold ClientIpMap.entry
    by_cases hip : s.ip = 0
    · simp [hip]
    · by_cases hmac : s.mac = mac <;> simp [hip, hmac]

/-- All slots are clean; what the handlers leave keeps that, and the number of slots. -/
structure CleanTable (maxConn : ℕ) (t : List ClientIpMap) : Prop where
  /-- The number of slots. -/
  length : t.length = maxConn
  /-- The slots. -/
  clean : ∀ s ∈ t, s.Clean

namespace CleanTable

variable {maxConn : ℕ} {t : List ClientIpMap}

theorem init (maxConn : ℕ) : CleanTable maxConn (apClientsInit maxConn) where
  length := List.length_replicate
  clean s hs := by
    rw [List.eq_of_mem_replicate hs]
    exact clean_zeroClient

/-- One slot written over. -/
theorem updated (h : CleanTable maxConn t) {p : ClientIpMap → Bool} {s' : ClientIpMap}
    (hs' : s'.Clean) {t' : List ClientIpMap} (ht' : updateFirst p (fun _ => s') t = some t') :
    CleanTable maxConn t' := by
  refine ⟨(length_of_updateFirst_eq_some ht').trans h.length, fun s hs => ?_⟩
  have hclean := h.clean
  obtain ⟨t₁, a, t₂, rfl, -, rfl⟩ := exists_of_updateFirst_eq_some ht'
  rcases List.mem_append.mp hs with h₁ | h₂
  · exact hclean s (List.mem_append_left _ h₁)
  · rcases List.mem_cons.mp h₂ with rfl | h₂
    · exact hs'
    · exact hclean s (List.mem_append_right _ (List.mem_cons_of_mem _ h₂))

theorem apply (h : CleanTable maxConn t) {e : ApEvent} (he : e.Proper) :
    CleanTable maxConn (e.apply t) := by
  cases e with
  | staIpAssigned mac ip =>
    have hnew : (⟨mac, ip⟩ : ClientIpMap).Clean := iff_of_false (he.2 ip rfl) he.1
    rw [ApEvent.apply, handleApStaIpAssigned]
    split
    · next t' ht' => exact h.updated hnew ht'
    · cases hfree : updateFirst (fun s : ClientIpMap => s.ip = 0) (fun _ => ⟨mac, ip⟩) t with
      | some t' => exact h.updated hnew hfree
      | none => exact h
  | staDisconnected mac =>
    rw [ApEvent.apply, handleApStaDisconnected]
    cases hkey : updateFirst (fun s : ClientIpMap => s.mac = mac) (fun _ => zeroClient) t with
    | some t' => exact h.updated clean_zeroClient hkey
    | none => exact h

/-- The table as slots with keys: an assignment is the assignment of a key. -/
theorem map_staIpAssigned (h : CleanTable maxConn t) {mac : Mac} {ip : UInt32}
    (hmac : mac ≠ .zero 6) (hip : ip ≠ 0) :
    (handleApStaIpAssigned t mac ip).map ClientIpMap.entry
      = KeySlots.assign mac ip (t.map ClientIpMap.entry) := by
  have hnew : ∀ _ : ClientIpMap, some (mac, ip) = (⟨mac, ip⟩ : ClientIpMap).entry :=
    fun _ => (if_neg hip).symm
  have hkey : updateFirst (KeySlots.holdsKey mac) (fun _ => some (mac, ip))
      (t.map ClientIpMap.entry) = _ :=
    updateFirst_map (fun s hs => holdsKey_entry (h.clean s hs) hmac) hnew
  have hfree : updateFirst Option.isNone (fun _ => some (mac, ip)) (t.map ClientIpMap.entry) = _ :=
    updateFirst_map (fun s _ => isNone_entry s) hnew
  rw [KeySlots.assign, hkey, hfree, handleApStaIpAssigned]
  cases updateFirst (fun s : ClientIpMap => s.mac = mac) (fun _ => ⟨mac, ip⟩) t with
  | some t' => rfl
  | none => exact (Option.getD_map _ _ _).symm

/-- A disconnect is the release of a key. -/
theorem map_staDisconnected (h : CleanTable maxConn t) {mac : Mac} (hmac : mac ≠ .zero 6) :
    (handleApStaDisconnected t mac).map ClientIpMap.entry
      = KeySlots.release mac (t.map ClientIpMap.entry) := by
  have hkey : updateFirst (KeySlots.holdsKey mac) (fun _ => none) (t.map ClientIpMap.entry) = _ :=
    updateFirst_map (f := fun _ => zeroClient)
      (fun s hs => holdsKey_entry (h.clean s hs) hmac) (fun _ => rfl)
  rw [KeySlots.release, hkey, handleApStaDisconnected]
  exact (Option.getD_map _ _ _).symm

end CleanTable

/-- The table stands for a map: its slots are clean, and the used ones are the entries. -/
structure Tracks (maxConn : ℕ) (t : List ClientIpMap) (m : Finmap fun _ : Mac => UInt32) :
    Prop where
  /-- The slots. -/
  table : CleanTable maxConn t
  /-- The used ones. -/
  entries : KeySlots.Represents (t.map ClientIpMap.entry) m

namespace Tracks

variable {maxConn : ℕ} {t : List ClientIpMap} {m : Finmap fun _ : Mac => UInt32}

theorem init (maxConn : ℕ) : Tracks maxConn (apClientsInit maxConn) ∅ where
  table := .init maxConn
  entries := by
    rw [apClientsInit, List.map_replicate]
    exact KeySlots.represents_replicate maxConn

/-- **An event does to the table what it does to the map.** -/
theorem apply (h : Tracks maxConn t m) {e : ApEvent} (he : e.Proper) :
    Tracks maxConn (e.apply t) (e.record maxConn m) := by
  refine ⟨h.table.apply he, ?_⟩
  cases e with
  | staIpAssigned mac ip =>
    have hassign := h.entries.assign mac ip
    rw [List.length_map, h.table.length] at hassign
    have hmac : mac ≠ .zero 6 := he.1
    rw [ApEvent.apply, h.table.map_staIpAssigned hmac (he.2 ip rfl)]
    exact hassign
  | staDisconnected mac =>
    have hmac : mac ≠ .zero 6 := he.1
    rw [ApEvent.apply, h.table.map_staDisconnected hmac]
    exact h.entries.release mac

/-- What is reported of a client is what the map says of it. -/
theorem clientInfo_eq (h : Tracks maxConn t m) (mac : Mac) :
    clientInfo t mac = ⟨mac, (m.lookup mac).getD 0, (m.lookup mac).isSome⟩ := by
  rw [← h.entries.lookup, lookup_entries, clientInfo]
  cases t.find? fun s => s.ip ≠ 0 && s.mac = mac with
  | none => rfl
  | some s => rfl

/-- No MAC address stands in two slots: the slots without one are the free ones. -/
theorem nodup_macs (h : Tracks maxConn t m) :
    ((t.map ClientIpMap.mac).filter (· ≠ .zero 6)).Nodup := by
  have hkeys : KeySlots.keys (t.map ClientIpMap.entry)
      = (t.map ClientIpMap.mac).filter (· ≠ .zero 6) := by
    rw [KeySlots.keys, List.filterMap_map, List.filter_map, ← List.filterMap_eq_map,
      List.filterMap_filter]
    refine List.filterMap_congr fun s hs => ?_
    have hclean := h.table.clean s hs
    by_cases hip : s.ip = 0
    · simp [ClientIpMap.entry, hip, hclean.mp hip]
    · simp [ClientIpMap.entry, hip, mt hclean.mpr hip]
  rw [← hkeys]
  exact h.entries.nodup

theorem card_le (h : Tracks maxConn t m) : m.keys.card ≤ maxConn := by
  rw [h.entries.card_keys, ← h.table.length, ← List.length_map ClientIpMap.entry]
  exact List.length_filterMap_le _ _

/-- When other clients have all the slots, an assignment leaves the table as it is. -/
theorem apply_of_full (h : Tracks maxConn t m) {mac : Mac} (ip : UInt32) (hmac : mac ∉ m)
    (hfull : ¬m.keys.card < maxConn) : handleApStaIpAssigned t mac ip = t := by
  have hused : ∀ s ∈ t, s.ip ≠ 0 := by
    have hlen : (KeySlots.keys (t.map ClientIpMap.entry)).length
        = (t.map ClientIpMap.entry).length := by
      have := h.card_le
      rw [← h.entries.card_keys, List.length_map, h.table.length]
      omega
    rw [KeySlots.keys, List.filterMap_length_eq_length] at hlen
    intro s hs hip
    have := hlen s.entry (List.mem_map_of_mem hs)
    simp [ClientIpMap.entry, hip] at this
  have hother : ∀ s ∈ t, s.mac ≠ mac := by
    rintro s hs rfl
    have hentry : some (s.mac, s.ip) ∈ t.map ClientIpMap.entry :=
      List.mem_map.mpr ⟨s, hs, if_neg (hused s hs)⟩
    exact hmac (h.entries.mem_keys_iff.mp (KeySlots.mem_keys.mpr ⟨s.ip, hentry⟩))
  have hkey : updateFirst (fun s : ClientIpMap => s.mac = mac) (fun _ => ⟨mac, ip⟩) t = none :=
    updateFirst_eq_none_iff.mpr fun s hs => decide_eq_false (hother s hs)
  have hfree : updateFirst (fun s : ClientIpMap => s.ip = 0) (fun _ => ⟨mac, ip⟩) t = none :=
    updateFirst_eq_none_iff.mpr fun s hs => decide_eq_false (hused s hs)
  rw [handleApStaIpAssigned, hkey, hfree]
  rfl

end Tracks

/-- **The table is the map of limited size**, whatever happens. -/
theorem tracks_clientsAfter (maxConn : ℕ) {events : List ApEvent}
    (hproper : ∀ e ∈ events, e.Proper) :
    Tracks maxConn (clientsAfter maxConn events) (recordedMap maxConn events) := by
  induction events using List.reverseRecOn with
  | nil => exact .init maxConn
  | append_singleton events e ih =>
    rw [clientsAfter_snoc, recordedMap_snoc]
    exact (ih fun e' he' => hproper e' (List.mem_append_left _ he')).apply
      (hproper e (List.mem_append_right _ (List.mem_singleton_self e)))

/-! ### The map and the history -/

section Record

variable {maxConn : ℕ} {m : Finmap fun _ : Mac => UInt32}

/-- An event says nothing of another client. -/
theorem lookup_record_of_ne (e : ApEvent) {mac : Mac} (hne : mac ≠ e.mac) :
    (e.record maxConn m).lookup mac = m.lookup mac := by
  cases e with
  | staIpAssigned mac' ip =>
    rw [ApEvent.record, Finmap.capInsert]
    split_ifs with hroom
    · exact Finmap.lookup_insert_of_ne m hne
    · rfl
  | staDisconnected mac' => exact Finmap.lookup_erase_ne hne

/-- With room for its client an event leaves what it gives. -/
theorem lookup_record_self (e : ApEvent) (hroom : e.mac ∈ m ∨ m.keys.card < maxConn) :
    (e.record maxConn m).lookup e.mac = e.given := by
  cases e with
  | staIpAssigned mac ip =>
    show (m.capInsert maxConn mac ip).lookup mac = some ip
    rw [Finmap.capInsert, if_pos (show mac ∈ m ∨ m.keys.card < maxConn from hroom)]
    exact Finmap.lookup_insert m
  | staDisconnected mac => exact Finmap.lookup_erase mac m

/-- Without room an event changes nothing. -/
theorem record_of_full (e : ApEvent) (hfull : ¬(e.mac ∈ m ∨ m.keys.card < maxConn)) :
    e.record maxConn m = m := by
  cases e with
  | staIpAssigned mac ip => exact if_neg hfull
  | staDisconnected mac => exact Finmap.erase_of_notMem fun hmem => hfull (Or.inl hmem)

end Record

/-- What the table knows of a client is what the history says, if it knows anything. -/
theorem lastAssigned_of_lookup {maxConn : ℕ} {events : List ApEvent} {mac : Mac} {ip : UInt32}
    (h : (recordedMap maxConn events).lookup mac = some ip) :
    lastAssigned events mac = some ip := by
  induction events using List.reverseRecOn with
  | nil => exact absurd h (by simp [recordedMap])
  | append_singleton events e ih =>
    rw [recordedMap_snoc] at h
    rw [lastAssigned_snoc]
    split_ifs with hmac
    · subst hmac
      by_cases hroom : e.mac ∈ recordedMap maxConn events ∨
          (recordedMap maxConn events).keys.card < maxConn
      · rw [← h, lookup_record_self e hroom]
      · rw [record_of_full e hroom] at h
        exact absurd (Finmap.mem_of_lookup_eq_some h) fun hmem => hroom (Or.inl hmem)
    · rw [lookup_record_of_ne e (Ne.symm hmac)] at h
      exact ih h

/-- An address for a client that the table does not know makes one holder more than it knows. -/
theorem card_lt_holders {maxConn : ℕ} {events : List ApEvent} {e : ApEvent}
    (hknown : ∀ mac, (recordedMap maxConn events).lookup mac = lastAssigned events mac)
    (hnot : e.mac ∉ recordedMap maxConn events) (hgiven : e.given.isSome = true) :
    (recordedMap maxConn events).keys.card < (holders (events ++ [e])).length := by
  have hsub : insert e.mac (recordedMap maxConn events).keys
      ⊆ (holders (events ++ [e])).toFinset := by
    intro k hk
    rw [List.mem_toFinset, mem_holders, lastAssigned_snoc]
    split_ifs with hne
    · exact hgiven
    · rcases Finset.mem_insert.mp hk with rfl | hk
      · exact absurd rfl hne
      · rwa [← hknown, Finmap.lookup_isSome, ← Finmap.mem_keys]
  have hcard := Finset.card_le_card hsub
  rwa [Finset.card_insert_of_notMem (mt Finmap.mem_keys.mp hnot),
    List.toFinset_card_of_nodup (nodup_holders _)] at hcard

/-- **With room for all**: while no more clients have an address than there are slots, the
table knows of every client what the history says. -/
theorem lookup_recordedMap {maxConn : ℕ} {events : List ApEvent}
    (hbound : ∀ before, before <+: events → (holders before).length ≤ maxConn) (mac : Mac) :
    (recordedMap maxConn events).lookup mac = lastAssigned events mac := by
  induction events using List.reverseRecOn generalizing mac with
  | nil => rfl
  | append_singleton events e ih =>
    have ih := ih fun before hb => hbound before (hb.trans (List.prefix_append _ _))
    rw [recordedMap_snoc, lastAssigned_snoc]
    split_ifs with hmac
    · subst hmac
      by_cases hroom : e.mac ∈ recordedMap maxConn events ∨
          (recordedMap maxConn events).keys.card < maxConn
      · exact lookup_record_self e hroom
      -- a full table: then the event gives no address, or there would be one holder too many
      · have hnot : e.mac ∉ recordedMap maxConn events := fun hmem => hroom (Or.inl hmem)
        rw [record_of_full e hroom, Finmap.lookup_eq_none.mpr hnot]
        cases hgiven : e.given with
        | none => rfl
        | some ip =>
          have hcard := card_lt_holders ih hnot (Option.isSome_of_eq_some hgiven)
          have := hbound (events ++ [e]) List.prefix_rfl
          omega
    · rw [lookup_record_of_ne e (Ne.symm hmac), ih]

/-! ### What is reported -/

/-- An event does not change what is reported of another client. -/
theorem clientInfo_of_ne (maxConn : ℕ) {events : List ApEvent}
    (hproper : ∀ e ∈ events, e.Proper) {e : ApEvent} (he : e.Proper) {mac : Mac}
    (hne : mac ≠ e.mac) :
    clientInfo (clientsAfter maxConn (events ++ [e])) mac
      = clientInfo (clientsAfter maxConn events) mac := by
  have htracks := tracks_clientsAfter maxConn hproper
  rw [clientsAfter_snoc, (htracks.apply he).clientInfo_eq, htracks.clientInfo_eq,
    lookup_record_of_ne e hne]

/-- **An event takes effect, or there is no room**: then all slots belong to other clients
with an address, and the table stays as it is. -/
theorem clientInfo_self_or_full (maxConn : ℕ) {events : List ApEvent}
    (hproper : ∀ e ∈ events, e.Proper) {e : ApEvent} (he : e.Proper) :
    clientInfo (clientsAfter maxConn (events ++ [e])) e.mac
        = ⟨e.mac, e.given.getD 0, e.given.isSome⟩ ∨
      e.given.isSome = true ∧
        clientsAfter maxConn (events ++ [e]) = clientsAfter maxConn events ∧
        ∃ others : List Mac, others.Nodup ∧ others.length = maxConn ∧ e.mac ∉ others ∧
          ∀ mac ∈ others, mac ∈ holders events := by
  have htracks := tracks_clientsAfter maxConn hproper
  by_cases hroom : e.mac ∈ recordedMap maxConn events ∨
      (recordedMap maxConn events).keys.card < maxConn
  · left
    rw [clientsAfter_snoc, (htracks.apply he).clientInfo_eq, lookup_record_self e hroom]
  · obtain ⟨hnot, hfull⟩ := not_or.mp hroom
    cases e with
    | staIpAssigned mac ip =>
      right
      refine ⟨rfl, (clientsAfter_snoc _ _ _).trans (htracks.apply_of_full ip hnot hfull),
        (recordedMap maxConn events).keys.toList, Finset.nodup_toList _, ?_, ?_, ?_⟩
      · have := htracks.card_le
        rw [Finset.length_toList]
        omega
      · rwa [Finset.mem_toList, Finmap.mem_keys]
      · intro mac' hmac'
        rw [Finset.mem_toList, Finmap.mem_keys, Finmap.mem_iff] at hmac'
        obtain ⟨ip', hip'⟩ := hmac'
        rw [mem_holders, lastAssigned_of_lookup hip']
        rfl
    | staDisconnected mac =>
      left
      rw [clientsAfter_snoc, (htracks.apply he).clientInfo_eq, record_of_full _ hroom,
        Finmap.lookup_eq_none.mpr hnot]
      rfl

/-- **What is reported of each client**, after any events with proper addresses.  While
no more clients have an address than there are slots, `ap_clients_get` reports the listed
stations in order, each with the address it was last given if it has not left since.  In
any case no MAC address stands in two slots, an event changes nothing for other clients,
and it takes effect for its own, except that an assignment is dropped when all slots
belong to other clients with an address. -/
theorem ap_clients_refine_map (maxConn : ℕ) (events : List ApEvent)
    (hproper : ∀ e ∈ events, e.Proper) :
    ((∀ before, before <+: events → (holders before).length ≤ maxConn) →
      ∀ stations : List Mac, stations.length ≤ maxConn →
        apClientsGet maxConn (clientsAfter maxConn events) (some stations)
          = some (stations.map fun mac =>
              ⟨mac, (lastAssigned events mac).getD 0, (lastAssigned events mac).isSome⟩)) ∧
    ((clientsAfter maxConn events).map ClientIpMap.mac |>.filter (· ≠ .zero 6)).Nodup ∧
    ∀ e : ApEvent, e.Proper →
      (∀ mac, mac ≠ e.mac → clientInfo (clientsAfter maxConn (events ++ [e])) mac
        = clientInfo (clientsAfter maxConn events) mac) ∧
      (clientInfo (clientsAfter maxConn (events ++ [e])) e.mac
          = ⟨e.mac, e.given.getD 0, e.given.isSome⟩ ∨
        e.given.isSome = true ∧
          clientsAfter maxConn (events ++ [e]) = clientsAfter maxConn events ∧
          ∃ others : List Mac, others.Nodup ∧ others.length = maxConn ∧ e.mac ∉ others ∧
            ∀ mac ∈ others, mac ∈ holders events) := by
  have htracks := tracks_clientsAfter maxConn hproper
  refine ⟨fun hbound stations hstations => ?_, htracks.nodup_macs, fun e he =>
    ⟨fun mac hne => clientInfo_of_ne maxConn hproper he hne,
      clientInfo_self_or_full maxConn hproper he⟩⟩
  rw [apClientsGet, Option.map_some, List.take_of_length_le hstations]
  congr 1
  refine List.map_congr_left fun mac _ => ?_
  rw [htracks.clientInfo_eq, lookup_recordedMap hbound]

/-- A phone. -/
def phone : Mac := ⟨[2, 0, 0, 0, 0, 1], rfl⟩

/-- A laptop. -/
def laptop : Mac := ⟨[2, 0, 0, 0, 0, 2], rfl⟩

/-- The phone leaves, and comes back with the laptop in its slot. -/
def homecoming : List ApEvent :=
  [.staIpAssigned phone 0x0204a8c0, .staDisconnected phone, .staIpAssigned laptop 0x0304a8c0,
    .staIpAssigned phone 0x0204a8c0, .staIpAssigned laptop 0x0404a8c0]

/-- In a table of two slots both are known, the laptop with its second address. -/
theorem homecoming_reported :
    apClientsGet 2 (clientsAfter 2 homecoming) (some [laptop, phone])
      = some [⟨laptop, 0x0404a8c0, true⟩, ⟨phone, 0x0204a8c0, true⟩] :=
  (ap_clients_refine_map 2 homecoming (by decide +kernel)).1
    (fun before hb => (show ∀ l ∈ homecoming.inits, (holders l).length ≤ 2 by decide) before
      ((List.mem_inits _ _).mpr hb))
    [laptop, phone] (by decide)

end WifiRepeater
