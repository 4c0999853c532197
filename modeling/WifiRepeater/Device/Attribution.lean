import WifiRepeater.Device.Clients

/-!
# Whose query it was

`lookup_mac_for_ip` names the client behind a query by the address it came from: the
first station of the driver's list that has the address.  The DHCP server may give an
address to a new client while its last holder is still associated, and then two listed
stations have it; which of them comes first is up to the driver.  A station that leaves is
forgotten, until it is given an address again.

## Main definitions

* `lastGiven`, `latestHolder` — the address a station was given last, and the listed station
  that was given an address last.

## Main results

* `formatMac_injective` — the text of a MAC address names one address.
* `attribution_iff` — **when the lookup names the latest holder.**
* `stale_holder_blamed` — the lease that goes wrong.
-/

namespace WifiRepeater

open Dns

/-! ### MAC addresses as text -/

/-- The digits of a byte. -/
def hexChars (b : UInt8) : List Char :=
  [Nat.digitChar (b.toNat / 16), Nat.digitChar (b.toNat % 16)]

theorem toList_hexByte (b : UInt8) : (hexByte b).toList = hexChars b := String.toList_ofList

theorem digitChar_injective : ∀ m n : Fin 16, Nat.digitChar m = Nat.digitChar n → m = n := by
  decide

/-- A digit is a character of one byte, and no colon. -/
theorem digitChar_range : ∀ n : Fin 16,
    (0 < (Nat.digitChar n).toNat ∧ (Nat.digitChar n).toNat < 256) ∧ Nat.digitChar n ≠ ':' := by
  decide

theorem hexChars_injective : Function.Injective hexChars := by
  intro a b h
  have ha := a.toNat_lt
  have hb := b.toNat_lt
  simp only [hexChars, List.cons.injEq, and_true] at h
  have hhi := digitChar_injective ⟨a.toNat / 16, by omega⟩ ⟨b.toNat / 16, by omega⟩ h.1
  have hlo := digitChar_injective ⟨a.toNat % 16, by omega⟩ ⟨b.toNat % 16, by omega⟩ h.2
  rw [Fin.mk.injEq] at hhi hlo
  apply UInt8.toNat_inj.mp
  omega

theorem hexChars_range {b : UInt8} {c : Char} (hc : c ∈ hexChars b) :
    (0 < c.toNat ∧ c.toNat < 256) ∧ c ≠ ':' := by
  have hb := b.toNat_lt
  rw [hexChars, List.mem_cons, List.mem_singleton] at hc
  rcases hc with rfl | rfl
  · exact digitChar_range ⟨b.toNat / 16, by omega⟩
  · exact digitChar_range ⟨b.toNat % 16, by omega⟩

/-- The text of a MAC address: the digits of its bytes with colons between them. -/
theorem chars_formatMac (mac : Mac) :
    (formatMac mac).chars = [':'].intercalate (mac.bytes.map hexChars) := by
  have htext : (":".intercalate (mac.bytes.map hexByte)).toList
      = [':'].intercalate (mac.bytes.map hexChars) := by
    rw [String.toList_intercalate, List.map_map]
    exact congrArg _ (List.map_congr_left fun b _ => toList_hexByte b)
  have hrange : ∀ c ∈ [':'].intercalate (mac.bytes.map hexChars),
      0 < c.toNat ∧ c.toNat < 256 := by
    refine List.forall_mem_intercalate (by simp) fun l hl c hc => ?_
    obtain ⟨b, -, rfl⟩ := List.mem_map.mp hl
    exact (hexChars_range hc).1
  rw [formatMac, CStr.chars_lit (by rwa [htext]), htext]

/-- **The text of a MAC address names one address.** -/
theorem formatMac_injective : Function.Injective formatMac := by
  intro a b h
  have hchars := congrArg CStr.chars h
  rw [chars_formatMac, chars_formatMac] at hchars
  have hsplit : ∀ mac : Mac, ([':'].intercalate (mac.bytes.map hexChars)).splitOn ':'
      = mac.bytes.map hexChars := by
    intro mac
    refine List.splitOn_intercalate ':' (fun l hl hmem => ?_) ?_
    · obtain ⟨b, -, rfl⟩ := List.mem_map.mp hl
      exact (hexChars_range hmem).2 rfl
    · have := mac.size
      simp only [ne_eq, List.map_eq_nil_iff]
      rintro hnil
      simp [hnil] at this
  have hmap := congrArg (List.splitOn ':') hchars
  rw [hsplit, hsplit] at hmap
  exact Buf.ext (List.map_injective_iff.mpr hexChars_injective hmap)

/-! ### The client behind an address -/

/-- The address a station was last given, whether or not it has left since. -/
def lastGiven (events : List ApEvent) (mac : Mac) : Option UInt32 :=
  events.reverse.findSome? fun e => if e.mac = mac then e.given else none

/-- The listed station that was given the address last, among those that were not given
another address since. -/
def latestHolder (events : List ApEvent) (stations : List Mac) (ip : UInt32) : Option Mac :=
  (events.reverse.find? fun e =>
    e.given = some ip ∧ e.mac ∈ stations ∧ lastGiven events e.mac = some ip).map ApEvent.mac

/-- A station that has an address was given it last. -/
theorem lastGiven_of_lastAssigned {events : List ApEvent} {mac : Mac} {ip : UInt32}
    (h : lastAssigned events mac = some ip) : lastGiven events mac = some ip := by
  obtain ⟨e, he, hgiven⟩ := Option.bind_eq_some_iff.mp h
  obtain ⟨hmac, later, earlier, hsplit, hlater⟩ := List.find?_eq_some_iff_append.mp he
  rw [lastGiven, hsplit, List.findSome?_append]
  -- none of the later events is about the station
  have hnone : (later.findSome? fun e => if e.mac = mac then e.given else none) = none := by
    refine List.findSome?_eq_none_iff.mpr fun a ha => if_neg ?_
    simpa using hlater a ha
  rw [hnone, Option.none_or, List.findSome?_cons, if_pos (by simpa using hmac), hgiven]

/-- The latest holder is a listed station. -/
theorem mem_of_latestHolder {events : List ApEvent} {stations : List Mac} {ip : UInt32}
    {mac : Mac} (h : latestHolder events stations ip = some mac) : mac ∈ stations := by
  obtain ⟨e, he, rfl⟩ := Option.map_eq_some_iff.mp h
  have := List.find?_some he
  simp only [decide_eq_true_eq] at this
  exact this.2.1

/-- If a listed station has the address, there is a latest holder. -/
theorem not_holds_of_latestHolder {events : List ApEvent} {stations : List Mac} {ip : UInt32}
    (h : latestHolder events stations ip = none) {mac : Mac} (hmac : mac ∈ stations) :
    lastAssigned events mac ≠ some ip := by
  intro hlast
  rw [latestHolder, Option.map_eq_none_iff, List.find?_eq_none] at h
  obtain ⟨e, he, hgiven⟩ := Option.bind_eq_some_iff.mp hlast
  have heq : e.mac = mac := by simpa using List.find?_some he
  have := h e (List.mem_of_find?_eq_some he)
  subst heq
  simp [hgiven, hmac, lastGiven_of_lastAssigned hlast] at this

/-- The lookup finds the first listed station that has the address. -/
theorem lookupMacForIp_eq {maxConn : ℕ} {events : List ApEvent}
    (hproper : ∀ e ∈ events, e.Proper)
    (hbound : ∀ before, before <+: events → (holders before).length ≤ maxConn)
    {stations : List Mac} (hstations : stations.length ≤ maxConn) (ip : UInt32) :
    lookupMacForIp (apClientsGet maxConn (clientsAfter maxConn events) (some stations)) ip
      = (stations.find? fun mac => lastAssigned events mac = some ip).map formatMac := by
  have hinfo : ∀ mac, clientInfo (clientsAfter maxConn events) mac
      = ⟨mac, (lastAssigned events mac).getD 0, (lastAssigned events mac).isSome⟩ := by
    intro mac
    rw [(tracks_clientsAfter maxConn hproper).clientInfo_eq, lookup_recordedMap hbound]
  rw [lookupMacForIp, apClientsGet, Option.map_some, List.take_of_length_le hstations,
    Option.getD_some, List.findSome?_map]
  clear hstations
  induction stations with
  | nil => rfl
  | cons mac stations ih =>
    rw [List.findSome?_cons, List.find?_cons, Function.comp_apply, hinfo, ih]
    cases lastAssigned events mac with
    | none => rfl
    | some ip' => by_cases hip : ip' = ip <;> simp [hip]

/-- A search finds a given element if none of those before it will do. -/
theorem find?_eq_some_iff_takeWhile {α : Type*} [DecidableEq α] {p : α → Bool} {a : α}
    (hp : p a = true) {l : List α} (ha : a ∈ l) :
    l.find? p = some a ↔ ∀ b ∈ l.takeWhile (· ≠ a), p b = false := by
  induction l with
  | nil => exact absurd ha (by simp)
  | cons b l ih =>
    rcases eq_or_ne b a with rfl | hne
    · simp [hp]
    · have hmem : a ∈ l := (List.mem_cons.mp ha).resolve_left (Ne.symm hne)
      rw [List.find?_cons, List.takeWhile_cons_of_pos (by simpa using hne), List.forall_mem_cons]
      cases hb : p b with
      | true => simpa [hb] using hne
      | false => simpa [hb] using ih hmem

/-- **When the lookup names the latest holder**, after any events with proper addresses
that never fill the table and for any list of stations: exactly when the latest holder has
not left since it was given the address, and none of the stations listed before it has the
address still. -/
theorem attribution_iff (maxConn : ℕ) (events : List ApEvent)
    (hproper : ∀ e ∈ events, e.Proper)
    (hbound : ∀ before, before <+: events → (holders before).length ≤ maxConn)
    (stations : List Mac) (hstations : stations.length ≤ maxConn) (ip : UInt32) :
    lookupMacForIp (apClientsGet maxConn (clientsAfter maxConn events) (some stations)) ip
        = (latestHolder events stations ip).map formatMac ↔
      ∀ holder ∈ latestHolder events stations ip, lastAssigned events holder = some ip ∧
        ∀ mac ∈ stations.takeWhile (· ≠ holder), lastAssigned events mac ≠ some ip := by
  rw [lookupMacForIp_eq hproper hbound hstations,
    (Option.map_injective formatMac_injective).eq_iff]
  cases hlatest : latestHolder events stations ip with
  -- nobody has the address, and nobody is found
  | none =>
    refine iff_of_true (List.find?_eq_none.mpr fun mac hmac => ?_) (by simp)
    simpa using not_holds_of_latestHolder hlatest hmac
  | some holder =>
    have hmem := mem_of_latestHolder hlatest
    simp only [Option.mem_some_iff, forall_eq']
    constructor
    · intro hfound
      have hlast : lastAssigned events holder = some ip := by simpa using List.find?_some hfound
      have hfirst := (find?_eq_some_iff_takeWhile
        (p := fun mac => lastAssigned events mac = some ip) (decide_eq_true hlast) hmem).mp hfound
      exact ⟨hlast, fun mac hmac => of_decide_eq_false (hfirst mac hmac)⟩
    · rintro ⟨hlast, hfirst⟩
      exact (find?_eq_some_iff_takeWhile
        (p := fun mac => lastAssigned events mac = some ip) (decide_eq_true hlast) hmem).mpr
          fun mac hmac => decide_eq_false (hfirst mac hmac)

/-- The phone's address is given to the laptop while the phone is still there. -/
def releasedLease : List ApEvent :=
  [.staIpAssigned phone 0x0204a8c0, .staIpAssigned laptop 0x0204a8c0]

theorem releasedLease_bound :
    ∀ before, before <+: releasedLease → (holders before).length ≤ 2 := fun before hb =>
  (show ∀ l ∈ releasedLease.inits, (holders l).length ≤ 2 by decide) before
    ((List.mem_inits _ _).mpr hb)

/-- With the laptop first in the driver's list, the laptop is named. -/
theorem latest_holder_named :
    lookupMacForIp (apClientsGet 2 (clientsAfter 2 releasedLease) (some [laptop, phone]))
        0x0204a8c0 = (latestHolder releasedLease [laptop, phone] 0x0204a8c0).map formatMac :=
  (attribution_iff 2 releasedLease (by decide +kernel) releasedLease_bound [laptop, phone]
    (by decide) 0x0204a8c0).mpr (by decide)

/-- A station that has left and come back is nobody until it is given an address. -/
example :
    let events : List ApEvent := [.staIpAssigned phone 0x0204a8c0, .staDisconnected phone]
    latestHolder events [phone] 0x0204a8c0 = some phone ∧
      lookupMacForIp (apClientsGet 2 (clientsAfter 2 events) (some [phone])) 0x0204a8c0 = none := by
  decide +kernel

/-- **With the phone first, the phone is**, and the laptop's queries are its. -/
theorem stale_holder_blamed :
    (∀ e ∈ releasedLease, e.Proper) ∧
      (∀ before, before <+: releasedLease → (holders before).length ≤ 2) ∧
      latestHolder releasedLease [phone, laptop] 0x0204a8c0 = some laptop ∧
      lookupMacForIp (apClientsGet 2 (clientsAfter 2 releasedLease) (some [phone, laptop]))
          0x0204a8c0 = some (formatMac phone) ∧
      formatMac phone ≠ formatMac laptop :=
  ⟨by decide +kernel, releasedLease_bound, by decide, by decide +kernel,
    fun h => absurd (formatMac_injective h) (by decide)⟩

end WifiRepeater
