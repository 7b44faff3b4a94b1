import Multio.Action.CoLocation

namespace Multio.Action
open Lib

namespace Transport

/-- The state behind one message, read under the parametrization of its time. -/
def afterMessage (t : Transport) (e : TransportContext × Message) : Transport :=
  match t.executeImpl e.1 e.2 with
  | .ok (_, t') => t'
  | .error _ => t

def after (t : Transport) (events : List (TransportContext × Message)) : Transport :=
  events.foldl afterMessage t

/-- The hash strings of the messages for which the client has to choose a server. -/
def sentKeys (t : Transport) (events : List (TransportContext × Message)) : List String :=
  events.filterMap fun e => hashString e.1 t.hashKeys e.2

/-- `place` gives every hash string its server: each message with the string goes there, and the
counters are the numbers of strings with that place. -/
structure SpreadBy (t : Transport) (events : List (TransportContext × Message))
    (place : String → ℕ) : Prop where
  chosen : ∀ pre e post k, events = pre ++ e :: post → hashString e.1 t.hashKeys e.2 = some k →
    0 < t.serverPeers.length → ∃ dest t',
      (t.after pre).chooseServer e.1 e.2.metadata = .ok (dest, t') ∧
        t.serverPeers[place k]? = some dest
  counted : ∀ i < t.serverPeers.length, (t.after events).counters[i]? =
    some ((t.sentKeys events).toFinset.filter fun k => place k = i).card
  balanced : ∀ x ∈ (t.after events).counters, ∀ y ∈ (t.after events).counters, x ≤ y + 1

variable {t : Transport}

/-- A message that goes to no single server leaves the choices as they are. -/
theorem afterMessage_none {e : TransportContext × Message}
    (h : hashString e.1 t.hashKeys e.2 = none) : t.afterMessage e = t := by
  rw [hashString] at h
  rw [afterMessage, executeImpl]
  cases hall : Metadata.get MetadataValue.getBool e.1.parametrization e.2.metadata "toAllServers"
    with
  | error err => rfl
  | ok all =>
    cases all with
    | true => rfl
    | false =>
      rw [if_pos (show distributes e.1 e.2 from hall)] at h
      have hchoose : ∃ err, t.chooseServer e.1 e.2.metadata = .error err := by
        rw [chooseServer]
        cases hhash : constructHash e.1 t.hashKeys e.2.metadata with
        | ok k => rw [hhash] at h; cases h
        | error err =>
          cases Exception.assert (0 < t.serverPeers.length) "No server to choose from" with
          | error err' => exact ⟨err', rfl⟩
          | ok _ => exact ⟨err, rfl⟩
      obtain ⟨err, herr⟩ := hchoose
      simp only [Exception.ok_bind, Bool.false_eq_true, if_false, herr, Exception.error_bind]

theorem afterMessage_some {e : TransportContext × Message} {k : String}
    (h : hashString e.1 t.hashKeys e.2 = some k) {dest : Peer} {t' : Transport}
    (hchoose : t.chooseServer e.1 e.2.metadata = .ok (dest, t')) : t.afterMessage e = t' := by
  have hdist : distributes e.1 e.2 := (sent_of_hashString_some (t := t) [] h).1
  rw [afterMessage, executeImpl, hdist]
  simp only [Exception.ok_bind, Bool.false_eq_true, if_false, hchoose]

theorem afterMessage_no_servers (h : t.serverPeers = []) (e : TransportContext × Message) :
    t.afterMessage e = t := by
  have hchoose : t.chooseServer e.1 e.2.metadata =
      .error (.assertionFailed "No server to choose from") := by
    rw [chooseServer, h]
    rfl
  rw [afterMessage, executeImpl, hchoose]
  rcases Metadata.get MetadataValue.getBool e.1.parametrization e.2.metadata "toAllServers" with
    err | _ | _
  · rfl
  · rfl
  · rfl

theorem after_cons (e : TransportContext × Message) (es : List (TransportContext × Message)) :
    t.after (e :: es) = (t.afterMessage e).after es := rfl

theorem after_no_servers (h : t.serverPeers = []) (es : List (TransportContext × Message)) :
    t.after es = t := by
  induction es with
  | nil => rfl
  | cons e es ih => rw [after_cons, afterMessage_no_servers h, ih]

theorem sentKeys_append (es es' : List (TransportContext × Message)) :
    t.sentKeys (es ++ es') = t.sentKeys es ++ t.sentKeys es' := List.filterMap_append

theorem sentKeys_cons_none {e : TransportContext × Message}
    (h : hashString e.1 t.hashKeys e.2 = none) (es : List (TransportContext × Message)) :
    t.sentKeys (e :: es) = t.sentKeys es := List.filterMap_cons_none h

theorem sentKeys_cons_some {e : TransportContext × Message} {k : String}
    (h : hashString e.1 t.hashKeys e.2 = some k) (es : List (TransportContext × Message)) :
    t.sentKeys (e :: es) = k :: t.sentKeys es := List.filterMap_cons_some h

/-- The state of an even distribution is determined by the strings in the order of their first
occurrence. -/
theorem after_even {seen : List String} (hservers : 0 < t.serverPeers.length)
    (heven : t.distType = .even) (hafter : t.EvenAfter seen)
    (es : List (TransportContext × Message)) :
    ∃ destinations counters,
      t.after es = { t with destinations := destinations, counters := counters } ∧
        (t.after es).EvenAfter (firstSeen seen (t.sentKeys es)) := by
  induction es generalizing t seen with
  | nil => exact ⟨t.destinations, t.counters, rfl, hafter⟩
  | cons e es ih =>
    rw [after_cons]
    cases hk : hashString e.1 t.hashKeys e.2 with
    | none =>
      rw [afterMessage_none hk, sentKeys_cons_none hk]
      exact ih hservers heven hafter
    | some k =>
      have hhash := (sent_of_hashString_some (t := t) [] hk).2.1
      obtain ⟨dest, destinations, counters, hchoose, hafter', -⟩ :=
        chooseServer_even hservers heven hafter hhash
      rw [afterMessage_some hk hchoose, sentKeys_cons_some hk, firstSeen]
      obtain ⟨destinations', counters', hrest, hafter''⟩ :=
        ih (t := { t with destinations := destinations, counters := counters }) hservers heven
          hafter'
      exact ⟨destinations', counters', hrest, hafter''⟩

theorem evenAfter_make (client : Peer) (serverPeers : List Peer)
    (clientCount usedServerCount : ℕ) (hashKeys : List String) :
    (make client serverPeers clientCount usedServerCount hashKeys .even).EvenAfter [] := by
  constructor
  · intro k
    rfl
  · exact (counters_zero serverPeers.length).symm

/-- Whatever a client sends, equal hash strings go to one server, each counter is the number of
distinct strings of its server, and no two counters differ by more than one. -/
theorem even_distribution (client : Peer) (serverPeers : List Peer)
    (clientCount usedServerCount : ℕ) (hashKeys : List String)
    (events : List (TransportContext × Message)) :
    ∃ place, (make client serverPeers clientCount usedServerCount hashKeys .even).SpreadBy
      events place := by
  generalize ht : make client serverPeers clientCount usedServerCount hashKeys .even = t
  have heven : t.distType = .even := by rw [← ht]; rfl
  have hstart : t.EvenAfter [] := ht ▸ evenAfter_make ..
  refine ⟨fun k => (firstSeen [] (t.sentKeys events)).idxOf k % t.serverPeers.length, ?_, ?_, ?_⟩
  · intro pre e post k hevents hk hservers
    have hhash := (sent_of_hashString_some (t := t) [] hk).2.1
    obtain ⟨destinations, counters, hpre, hafter⟩ := after_even hservers heven hstart pre
    rw [hpre] at hafter ⊢
    obtain ⟨dest, destinations', counters', hchoose, -, hdest⟩ :=
      chooseServer_even (t := { t with destinations := destinations, counters := counters })
        hservers heven hafter hhash
    refine ⟨dest, _, hchoose, ?_⟩
    -- the rank of the string does not change any more
    have hkeys : t.sentKeys events = t.sentKeys pre ++ k :: t.sentKeys post := by
      rw [hevents, sentKeys_append, sentKeys_cons_some hk]
    have hmem : k ∈ (if k ∈ firstSeen [] (t.sentKeys pre) then firstSeen [] (t.sentKeys pre)
        else firstSeen [] (t.sentKeys pre) ++ [k]) := by
      split_ifs with hseen
      · exact hseen
      · simp
    rw [hkeys, firstSeen_append, firstSeen, idxOf_firstSeen hmem]
    exact hdest
  · intro i hi
    obtain ⟨destinations, counters, hrun, -, hcount⟩ :=
      after_even (Nat.zero_lt_of_lt hi) heven hstart events
    have hnodup := firstSeen_nodup List.nodup_nil (t.sentKeys events)
    have hset : (t.sentKeys events).toFinset = (firstSeen [] (t.sentKeys events)).toFinset := by
      ext k
      rw [List.mem_toFinset, List.mem_toFinset, mem_firstSeen]
      simp
    rw [hcount, hset, card_filter_idxOf hnodup fun r => r % t.serverPeers.length = i, hrun]
    exact counters_eq_card hi _
  · intro x hx y hy
    rcases Nat.eq_zero_or_pos t.serverPeers.length with hnone | hservers
    · have hnil : t.serverPeers = [] := List.length_eq_zero_iff.mp hnone
      rw [after_no_servers hnil, hstart.2, hnone] at hx
      exact absurd hx List.not_mem_nil
    · obtain ⟨destinations, counters, -, -, hcount⟩ := after_even hservers heven hstart events
      rw [hcount] at hx hy
      exact counters_balanced hx hy

end Transport
end Multio.Action
