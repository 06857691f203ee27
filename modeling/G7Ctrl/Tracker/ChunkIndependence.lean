import G7Ctrl.Core.Framing
import G7Ctrl.Tracker.Stream
import Mathlib.Data.List.Basic

/-!
# When the tracker protocol is read correctly

A tracker writes a stream of *packets*: records ending in `"\r\n"` (replies and location events)
and keep-alives of eight bytes.  TCP hands this stream to `tracker_clientsrv` cut into reads, with
no regard for packets.  The connection is **served** when every record is handled once, whole and
in order, and every keep-alive is answered once.

Since nothing is kept between two reads, and since a read is taken either as one keep-alive or as
lines, this depends on the cut.

* `Aligned` — every read holds either exactly one keep-alive or some whole records (and the records
  are such that the code can recognise them at all).
* **`served_iff_aligned`** — the connection is served exactly when the reads are aligned.
* **`splitRecord_lost`** — a record that arrives in two reads is not handled.

The direction from served to aligned rests on counting: what is handled or answered from a read is
part of that read, so if every byte of the stream is accounted for, nothing of any read was lost.
-/

namespace G7

/-! ## Packets -/

/-- What a record says. -/
inductive Body
  | reply (ok : Bool) (rest : CStr)
  | location (event : LocationEvent)

/-- The line without its terminator. -/
def Body.text : Body → CStr
  | .reply true rest => str "$OK:" ++ rest
  | .reply false rest => str "$ERR:" ++ rest
  | .location event => event.text

/-- The handler a record is meant for. -/
def Body.pkgType : Body → PkgType
  | .reply _ _ => .cmdReply
  | .location event => event.pkgType

/-- A record: a text without NUL. -/
structure Record where
  /-- What it says. -/
  body : Body
  /-- It is a string. -/
  noNul : (0 : Byte) ∉ body.text

/-- A record as it is sent. -/
def Record.line (r : Record) : CStr := r.body.text ++ crlf

/-- A keep-alive: sequence number and device id in six bytes. -/
structure KeepAlive where
  /-- The bytes after the marker. -/
  payload : List Byte
  /-- There are six. -/
  length_eq : payload.length = 6

/-- A keep-alive as it is sent. -/
def KeepAlive.bytes (k : KeepAlive) : List Byte := 0xD0 :: 0xD7 :: k.payload

/-- What a tracker sends. -/
inductive Packet
  | record (r : Record)
  | keepAlive (k : KeepAlive)

/-- A packet as it is sent. -/
def Packet.bytes : Packet → List Byte
  | .record r => r.line
  | .keepAlive k => k.bytes

/-- What should be done with a packet. -/
def Packet.event : Packet → TrackerEvent
  | .record r => .handle r.body.pkgType r.line
  | .keepAlive k => .answer k.bytes

/-- Packets sent one after the other. -/
def stream (ps : List Packet) : List Byte := (ps.map Packet.bytes).flatten

/-- The bytes an event is about. -/
def TrackerEvent.bytes : TrackerEvent → List Byte
  | .handle _ package => package
  | .answer packet => packet

/-- The calls of `handleCmdReplyPackage` and `handleLocPackage`, in order. -/
def handled : List TrackerEvent → List (PkgType × CStr)
  | [] => []
  | .handle pkg package :: evs => (pkg, package) :: handled evs
  | .answer _ :: evs => handled evs

/-- The packets written back, in order. -/
def answered : List TrackerEvent → List (List Byte)
  | [] => []
  | .handle _ _ :: evs => answered evs
  | .answer packet :: evs => packet :: answered evs

/-- Every record was handled once, whole, in order and by its handler, and every keep-alive was
answered once. -/
structure Served (ps : List Packet) (evs : List TrackerEvent) : Prop where
  /-- The records. -/
  records : handled evs = handled (ps.map Packet.event)
  /-- The keep-alives. -/
  keepAlives : (answered evs).Perm (answered (ps.map Packet.event))

/-! ## The condition -/

/-- The code can recognise the record: it has no `'\r'` before its end, and if it is a location
event it can be split. -/
def Readable (r : Record) : Prop :=
  cr ∉ r.body.text ∧ ∀ event, r.body = .location event → Splittable r.line

/-- What a read may hold: one keep-alive, or records only. -/
def ReadsWhole (g : List Packet) : Prop :=
  (∃ k, g = [.keepAlive k]) ∨ ∀ p ∈ g, ∃ r, p = .record r

/-- The reads cut the stream between packets, and leave every keep-alive alone. -/
structure Aligned (ps : List Packet) (chunks : List (List Byte)) : Prop where
  /-- The records can be recognised. -/
  readable : ∀ r, .record r ∈ ps → Readable r
  /-- Every read is made of whole packets. -/
  whole : ∃ groups : List (List Packet),
    groups.flatten = ps ∧ groups.map stream = chunks ∧ ∀ g ∈ groups, ReadsWhole g

/-! ## Aligned reads are served -/

lemma Body.text_ne_nil : ∀ b : Body, b.text ≠ []
  | .reply true _ => by simp [Body.text, str]
  | .reply false _ => by simp [Body.text, str]
  | .location event => event.ne_nil

/-- A record begins like a line, not like a keep-alive. -/
lemma Record.lead (r : Record) :
    byteAt r.line 0 = ch '$' ∨ byteAt r.line 0 = ch '3' ∨ byteAt r.line 0 = ch '[' := by
  rw [Record.line, byteAt_append_zero r.body.text_ne_nil]
  cases r.body with
  | reply ok rest => cases ok <;> exact Or.inl rfl
  | location event => exact Or.inr event.lead

lemma Record.lead_ne (r : Record) : byteAt r.line 0 ≠ 0 ∧ byteAt r.line 0 ≠ 0xD0 := by
  rcases r.lead with h | h | h <;> rw [h] <;> decide

/-- **A record is recognised** exactly when it is readable as a line, and then it is passed to its
handler. -/
lemma handlePackage_record (r : Record) (t : PkgType) :
    arrivingPackageType r.line = some t ↔
      (∀ event, r.body = .location event → Splittable r.line) ∧ t = r.body.pkgType := by
  obtain ⟨body, noNul⟩ := r
  cases body with
  | reply ok rest =>
      have hlead : byteAt (Record.line ⟨.reply ok rest, noNul⟩) 0 = ch '$' := by
        rw [Record.line, byteAt_append_zero (Body.text_ne_nil _)]
        cases ok <;> rfl
      rw [arrivingPackageType_reply hlead]
      simp [Body.pkgType, eq_comm]
  | location event =>
      have h := arrivingPackageType_location event t
      simp only [Record.line, Body.text, Body.pkgType, Body.location.injEq, forall_eq'] at h ⊢
      exact h

/-- Whole records are read one by one. -/
lemma packages_stream : ∀ {g : List Packet}, (∀ p ∈ g, ∃ r, p = .record r) →
    (∀ r, .record r ∈ g → Readable r) →
      (packages [] (stream g)).filterMap handlePackage = g.map Packet.event
  | [], _, _ => rfl
  | p :: ps, hrec, hread => by
      obtain ⟨r, rfl⟩ := hrec p (List.mem_cons_self ..)
      obtain ⟨hcr, hsplit⟩ := hread r (List.mem_cons_self ..)
      have ih := packages_stream (fun q hq => hrec q (List.mem_cons_of_mem _ hq))
        (fun q hq => hread q (List.mem_cons_of_mem _ hq))
      have hhandle : handlePackage r.line = some (Packet.event (.record r)) := by
        rw [handlePackage, (handlePackage_record r r.body.pkgType).mpr ⟨hsplit, rfl⟩]
        rfl
      have hstream : stream (.record r :: ps) = r.body.text ++ crlf ++ stream ps := rfl
      rw [hstream, packages_line [] _ _ r.noNul hcr, List.nil_append, ← Record.line,
        List.filterMap_cons_some hhandle, ih, List.map_cons]

/-- A read that holds whole packets is served. -/
lemma readEvents_stream {g : List Packet} (hg : ReadsWhole g)
    (hread : ∀ r, .record r ∈ g → Readable r) : readEvents (stream g) = g.map Packet.event := by
  rcases hg with ⟨k, rfl⟩ | hrec
  · have hstream : stream [.keepAlive k] = 0xD0 :: 0xD7 :: k.payload := List.append_nil _
    have hlen : (0xD0 :: 0xD7 :: k.payload).length = keepAliveLen := by
      simp [k.length_eq, keepAliveLen]
    rw [hstream, readEvents, byteAt_cons_zero, if_neg (by decide), if_pos ⟨rfl, rfl⟩, if_pos hlen]
    rfl
  · cases g with
    | nil => rfl
    | cons p ps =>
        obtain ⟨r, rfl⟩ := hrec p (List.mem_cons_self ..)
        have hhead : byteAt (stream (.record r :: ps)) 0 = byteAt r.line 0 :=
          byteAt_append_zero (by simp [Packet.bytes, Record.line, crlf]) _
        rw [readEvents, hhead, if_neg r.lead_ne.1, if_neg fun h => r.lead_ne.2 h.1,
          packages_stream hrec hread]

/-! ## What is served was aligned -/

/-- A piece of a stream that cannot be mistaken: eight bytes beginning like a keep-alive, or a
line that does not. -/
def IsUnit (u : List Byte) : Prop :=
  (byteAt u 0 = 0xD0 ∧ u.length = keepAliveLen) ∨
    (byteAt u 0 ≠ 0xD0 ∧ ∃ text, cr ∉ text ∧ u = text ++ crlf)

lemma IsUnit.ne_nil {u : List Byte} (h : IsUnit u) : u ≠ [] := by
  rintro rfl
  rcases h with ⟨h, _⟩ | ⟨_, text, _, h⟩
  · exact absurd h (by decide)
  · simp [crlf] at h

/-- **Units are prefix-free.** -/
lemma prefixFree_isUnit : PrefixFree IsUnit := by
  intro u v hu hv hp
  have hne := hu.ne_nil
  obtain ⟨s, rfl⟩ := hp
  have hhead : byteAt (u ++ s) 0 = byteAt u 0 := byteAt_append_zero hne s
  rcases hu with ⟨hu0, hulen⟩ | ⟨hu0, text, htext, rfl⟩
  · rcases hv with ⟨_, hvlen⟩ | ⟨hv0, _⟩
    · rw [List.length_append] at hvlen
      have hs : s = [] := List.eq_nil_of_length_eq_zero (by omega)
      simp [hs]
    · exact absurd (hhead.trans hu0) hv0
  · rcases hv with ⟨hv0, _⟩ | ⟨_, text', htext', h⟩
    · exact absurd (hhead.symm.trans hv0) hu0
    · have hcut : text' ++ cr :: [lf] = text ++ cr :: (lf :: s) := by
        simpa [crlf] using h.symm
      obtain ⟨_, _, hs⟩ := (List.append_cons_inj_of_notMem htext' (by decide)).mp hcut
      have hs : s = [] := by simpa using hs.symm
      simp [hs]

/-- The lines of a buffer are a beginning of it. -/
lemma packages_initial : ∀ (line : CStr) (bytes : List Byte),
    (packages line bytes).flatten <+: line ++ bytes
  | line, [] => ⟨line, by simp⟩
  | line, c :: cs => by
      by_cases h0 : c = 0
      · subst h0
        rw [packages_nul]
        exact List.nil_prefix
      by_cases hc : c = cr
      · subst hc
        cases cs with
        | nil =>
            rw [packages_cr_nil]
            exact List.nil_prefix
        | cons d rest =>
            by_cases hd : d = lf
            · subst hd
              rw [packages_crlf, List.flatten_cons]
              have ih := packages_initial [] rest
              have hsplit : line ++ cr :: lf :: rest = (line ++ crlf) ++ rest := by simp [crlf]
              rw [hsplit, List.prefix_append_right_inj]
              exact ih
            · rw [packages_cr_cons line hd]
              exact List.nil_prefix
      · rw [packages_char line h0 hc]
        have ih := packages_initial (line ++ [c]) cs
        rwa [List.append_assoc, List.singleton_append] at ih

/-- A line has no `'\r'` before its end. -/
lemma packages_mem : ∀ {line : CStr} {bytes : List Byte} {p : CStr}, cr ∉ line →
    p ∈ packages line bytes → ∃ text, cr ∉ text ∧ p = text ++ crlf
  | line, [], p, _, hp => by simp at hp
  | line, c :: cs, p, hline, hp => by
      by_cases h0 : c = 0
      · subst h0
        simp [packages_nul] at hp
      by_cases hc : c = cr
      · subst hc
        cases cs with
        | nil => simp [packages_cr_nil] at hp
        | cons d rest =>
            by_cases hd : d = lf
            · subst hd
              rw [packages_crlf, List.mem_cons] at hp
              rcases hp with rfl | hp
              · exact ⟨line, hline, rfl⟩
              · exact packages_mem (by simp) hp
            · simp [packages_cr_cons line hd] at hp
      · rw [packages_char line h0 hc] at hp
        refine packages_mem ?_ hp
        rw [List.mem_append, List.mem_singleton, not_or]
        exact ⟨hline, fun h => hc h.symm⟩

/-- Leaving out unknown lines leaves out bytes. -/
lemma filterMap_handlePackage_sublist : ∀ pkgs : List CStr,
    (((pkgs.filterMap handlePackage).map TrackerEvent.bytes).flatten).Sublist pkgs.flatten
  | [] => List.Sublist.refl _
  | p :: pkgs => by
      have ih := filterMap_handlePackage_sublist pkgs
      cases hp : arrivingPackageType p with
      | none =>
          have hnone : handlePackage p = none := by simp [handlePackage, hp]
          rw [List.filterMap_cons_none hnone, List.flatten_cons]
          exact ih.trans (List.sublist_append_right ..)
      | some t =>
          have hsome : handlePackage p = some (.handle t p) := by simp [handlePackage, hp]
          rw [List.filterMap_cons_some hsome, List.map_cons, List.flatten_cons, List.flatten_cons]
          exact ih.append_left p

/-- The part of a read that is handled or answered. -/
def taken (bytes : List Byte) : List Byte := ((readEvents bytes).map TrackerEvent.bytes).flatten

/-- What is handled or answered from a read is indeed part of it. -/
lemma taken_sublist (bytes : List Byte) : (taken bytes).Sublist bytes := by
  rw [taken, readEvents]
  split_ifs
  · exact List.nil_sublist _
  · simp [TrackerEvent.bytes]
  · exact List.nil_sublist _
  · exact (filterMap_handlePackage_sublist _).trans (packages_initial [] bytes).sublist

/-- An event that comes from a read: either the read was a keep-alive, or the event is about one of
its lines. -/
lemma mem_readEvents {bytes : List Byte} {ev : TrackerEvent} (h : ev ∈ readEvents bytes) :
    (byteAt bytes 0 = 0xD0 ∧ bytes.length = keepAliveLen ∧ ev = .answer bytes) ∨
      ∃ t text, arrivingPackageType (text ++ crlf) = some t ∧ cr ∉ text ∧
        ev = .handle t (text ++ crlf) := by
  rw [readEvents] at h
  split_ifs at h with h0 hka hlen
  · simp at h
  · exact Or.inl ⟨hka.1, hlen, List.mem_singleton.mp h⟩
  · simp at h
  · obtain ⟨p, hp, hev⟩ := List.mem_filterMap.mp h
    obtain ⟨text, htext, rfl⟩ := packages_mem (by simp) hp
    obtain ⟨t, ht, rfl⟩ := Option.map_eq_some_iff.mp hev
    exact Or.inr ⟨t, text, ht, htext, rfl⟩

/-- Every event is about a unit. -/
lemma isUnit_of_mem_readEvents {bytes : List Byte} {ev : TrackerEvent}
    (h : ev ∈ readEvents bytes) : IsUnit ev.bytes := by
  rcases mem_readEvents h with ⟨h0, hlen, rfl⟩ | ⟨t, text, ht, hcr, rfl⟩
  · exact Or.inl ⟨h0, hlen⟩
  · refine Or.inr ⟨?_, text, hcr, rfl⟩
    rcases arrivingPackageType_lead ht with h | h | h <;> rw [TrackerEvent.bytes, h] <;> decide

lemma isUnit_keepAlive (k : KeepAlive) : IsUnit k.bytes :=
  Or.inl ⟨rfl, by simp [KeepAlive.bytes, k.length_eq, keepAliveLen]⟩

lemma isUnit_record {r : Record} (h : cr ∉ r.body.text) : IsUnit r.line :=
  Or.inr ⟨r.lead_ne.2, r.body.text, h, rfl⟩

lemma mem_handled {t : PkgType} {package : CStr} : ∀ evs : List TrackerEvent,
    (t, package) ∈ handled evs ↔ .handle t package ∈ evs
  | [] => by simp [handled]
  | .handle pkg p :: evs => by simp [handled, mem_handled evs]
  | .answer p :: evs => by simp [handled, mem_handled evs]

/-- The bytes of a list of events, counted by kind. -/
lemma bytes_length : ∀ evs : List TrackerEvent,
    ((evs.map TrackerEvent.bytes).flatten).length
      = (((handled evs).map Prod.snd).flatten).length + ((answered evs).flatten).length
  | [] => rfl
  | .handle _ p :: evs => by
      have ih := bytes_length evs
      simp only [List.map_cons, List.flatten_cons, List.length_append, TrackerEvent.bytes, handled,
        answered] at ih ⊢
      omega
  | .answer p :: evs => by
      have ih := bytes_length evs
      simp only [List.map_cons, List.flatten_cons, List.length_append, TrackerEvent.bytes, handled,
        answered] at ih ⊢
      omega

lemma event_bytes (p : Packet) : p.event.bytes = p.bytes := by
  cases p <;> rfl

/-- The events of a served connection are about as many bytes as were sent. -/
lemma Served.length {ps : List Packet} {evs : List TrackerEvent} (h : Served ps evs) :
    ((evs.map TrackerEvent.bytes).flatten).length = (stream ps).length := by
  have hps : (ps.map Packet.event).map TrackerEvent.bytes = ps.map Packet.bytes := by
    rw [List.map_map]
    exact List.map_congr_left fun p _ => event_bytes p
  rw [stream, ← hps, bytes_length, bytes_length, h.records, h.keepAlives.flatten.length_eq]

/-- A record that was handled is readable. -/
lemma readable_of_handled {chunks : List (List Byte)} {r : Record}
    (h : (r.body.pkgType, r.line) ∈ handled (chunks.flatMap readEvents)) : Readable r := by
  obtain ⟨c, _, hc⟩ := List.mem_flatMap.mp ((mem_handled _).mp h)
  rcases mem_readEvents hc with ⟨_, _, heq⟩ | ⟨t, text, ht, hcr, heq⟩
  · exact absurd heq (by simp)
  · obtain ⟨rfl, hline⟩ := TrackerEvent.handle.inj heq
    rw [← hline] at ht
    have htext : r.body.text = text := List.append_cancel_right hline
    exact ⟨htext ▸ hcr, ((handlePackage_record r _).mp ht).1⟩

/-- Packets that were read together are one keep-alive, or records. -/
lemma readsWhole_of_bytes {g : List Packet} {c : List Byte}
    (h : g.map Packet.bytes = (readEvents c).map TrackerEvent.bytes) (hc : stream g = c) :
    ReadsWhole g := by
  by_cases hka : byteAt c 0 = 0xD0 ∧ byteAt c 1 = 0xD7
  · rw [readEvents, if_neg (by rw [hka.1]; decide), if_pos hka] at h
    split_ifs at h
    · obtain ⟨p, rfl, hp⟩ := List.map_eq_singleton_iff.mp h
      cases p with
      | keepAlive k => exact Or.inl ⟨k, rfl⟩
      | record r =>
          have hp : r.line = c := hp
          exact absurd (hp ▸ hka.1) r.lead_ne.2
    · right
      rw [List.map_eq_nil_iff.mp h]
      simp
  · right
    intro p hp
    cases p with
    | record r => exact ⟨r, rfl⟩
    | keepAlive k =>
        have hmem : k.bytes ∈ (readEvents c).map TrackerEvent.bytes :=
          h ▸ List.mem_map_of_mem hp
        obtain ⟨ev, hev, hbytes⟩ := List.mem_map.mp hmem
        rcases mem_readEvents hev with ⟨_, _, rfl⟩ | ⟨t, text, ht, _, rfl⟩
        · have hbytes : c = k.bytes := hbytes
          rw [hbytes] at hka
          exact absurd ⟨rfl, rfl⟩ hka
        · have hbytes : text ++ crlf = k.bytes := hbytes
          have hlead := arrivingPackageType_lead ht
          rw [hbytes] at hlead
          exact absurd hlead (by rw [KeepAlive.bytes, byteAt_cons_zero]; decide)

lemma flatMap_taken (chunks : List (List Byte)) :
    chunks.flatMap taken = ((chunks.flatMap readEvents).map TrackerEvent.bytes).flatten := by
  rw [List.map_flatMap, List.flatMap_def, List.flatMap_def, List.flatten_flatten, List.map_map]
  rfl

/-- **Nothing of any read is left out** when the connection is served, since every byte sent is
accounted for. -/
lemma Served.taken_eq {ps : List Packet} {chunks : List (List Byte)}
    (h : Served ps (chunks.flatMap readEvents)) (hstream : chunks.flatten = stream ps) :
    ∀ c ∈ chunks, taken c = c := by
  refine eq_of_flatMap_length (fun c _ => taken_sublist c) ?_
  rw [flatMap_taken, h.length, hstream]

lemma Served.readable {ps : List Packet} {chunks : List (List Byte)}
    (h : Served ps (chunks.flatMap readEvents)) : ∀ r, .record r ∈ ps → Readable r :=
  fun _ hr => readable_of_handled
    (h.records ▸ (mem_handled _).mpr (List.mem_map_of_mem (f := Packet.event) hr))

/-- **Events and packets are the same units**, since both make up the stream. -/
lemma Served.units_eq {ps : List Packet} {chunks : List (List Byte)}
    (h : Served ps (chunks.flatMap readEvents)) (hstream : chunks.flatten = stream ps) :
    (chunks.flatMap readEvents).map TrackerEvent.bytes = ps.map Packet.bytes := by
  refine prefixFree_isUnit.flatten_inj (fun u hu => hu.ne_nil) ?_ ?_ ?_
  · intro u hu
    obtain ⟨ev, hev, rfl⟩ := List.mem_map.mp hu
    obtain ⟨c, _, hc⟩ := List.mem_flatMap.mp hev
    exact isUnit_of_mem_readEvents hc
  · intro u hu
    obtain ⟨p, hp, rfl⟩ := List.mem_map.mp hu
    cases p with
    | record r => exact isUnit_record (h.readable r hp).1
    | keepAlive k => exact isUnit_keepAlive k
  · rw [← flatMap_taken, List.flatMap_def, List.map_congr_left (h.taken_eq hstream), List.map_id',
      hstream, stream]

/-- A served connection was read in alignment: each read takes its share of the packets. -/
lemma aligned_of_served {ps : List Packet} {chunks : List (List Byte)}
    (hstream : chunks.flatten = stream ps) (h : Served ps (chunks.flatMap readEvents)) :
    Aligned ps chunks := by
  have hunits : ps.map Packet.bytes
      = (chunks.map fun c => (readEvents c).map TrackerEvent.bytes).flatten := by
    rw [← h.units_eq hstream, List.map_flatMap, List.flatMap_def]
  obtain ⟨groups, hps, hmap⟩ := exists_groups Packet.bytes hunits
  have hstreams : groups.map stream = chunks := by
    have hmaps := congrArg (List.map List.flatten) hmap
    rw [List.map_map, List.map_map] at hmaps
    calc groups.map stream = chunks.map taken := hmaps
      _ = chunks := by rw [List.map_congr_left (h.taken_eq hstream), List.map_id']
  refine ⟨h.readable, groups, hps, hstreams, fun g hg => ?_⟩
  have hlen : groups.length = chunks.length := by rw [← hstreams, List.length_map]
  obtain ⟨i, hi, rfl⟩ := List.mem_iff_getElem.mp hg
  have hi' : i < chunks.length := hlen ▸ hi
  refine readsWhole_of_bytes (c := chunks[i]) ?_ ?_
  · have hget := congrArg (fun l => l[i]?) hmap
    simpa [hi, hi'] using hget
  · have hget := congrArg (fun l => l[i]?) hstreams
    simpa [hi, hi'] using hget

/-- Aligned reads are served. -/
lemma served_of_aligned {ps : List Packet} {chunks : List (List Byte)} (h : Aligned ps chunks) :
    Served ps (chunks.flatMap readEvents) := by
  obtain ⟨hread, groups, rfl, rfl, hwhole⟩ := h
  have hevents : (groups.map stream).flatMap readEvents = groups.flatten.map Packet.event := by
    rw [List.flatMap_map, List.map_flatten, List.flatMap_def]
    refine congrArg _ (List.map_congr_left fun g hg => ?_)
    exact readEvents_stream (hwhole g hg) fun r hr =>
      hread r (List.mem_flatten.mpr ⟨g, hg, hr⟩)
  rw [hevents]
  exact ⟨rfl, List.Perm.refl _⟩

/-- **Every record is handled once, whole and in order, and every keep-alive is answered once,
exactly when the reads are aligned with the packets.**  The stream is any sequence of packets; the
reads cut it anywhere, into pieces that leave room for the NUL, with any time-outs in between that
do not end the connection. -/
theorem served_iff_aligned {maxDeviceIdleTime : ℕ} (ps : List Packet) (rs : List SelectResult)
    (hstay : StaysOnline maxDeviceIdleTime 0 rs) (hstream : (reads rs).flatten = stream ps)
    (hreads : ∀ c ∈ reads rs, c ≠ [] ∧ c.length < buffer50K) :
    Served ps (trackerClientsrv maxDeviceIdleTime rs) ↔ Aligned ps (reads rs) := by
  rw [trackerClientsrv_eq hstay hreads]
  exact ⟨aligned_of_served hstream, served_of_aligned⟩

/-- The reply `$OK:RESET+0001=`. -/
def resetReply : Record := ⟨.reply true (str "RESET+0001="), by decide⟩

/-- A keep-alive of device 3000000001. -/
def firstKeepAlive : KeepAlive := ⟨[1, 0, 0x01, 0x5E, 0xD0, 0xB2], rfl⟩

/-- A keep-alive, a pause and two replies in one read. -/
def pauseReads : List SelectResult :=
  [.ready firstKeepAlive.bytes, .timeout, .ready (resetReply.line ++ resetReply.line)]

/-- They are all served. -/
theorem served_iff_aligned_pause :
    Served [.keepAlive firstKeepAlive, .record resetReply, .record resetReply]
      (trackerClientsrv 600 pauseReads) := by
  have hstay : StaysOnline 600 0 pauseReads := by
    simp [StaysOnline, pauseReads, trackerSocketTimeout]
  have hreads : ∀ c ∈ reads pauseReads, c ≠ [] ∧ c.length < buffer50K := by
    simp [reads, pauseReads, buffer50K, firstKeepAlive, KeepAlive.bytes, resetReply, Record.line,
      Body.text, str, crlf]
  have haligned : Aligned [.keepAlive firstKeepAlive, .record resetReply, .record resetReply]
      (reads pauseReads) := by
    refine ⟨fun r hr => ?_,
      [[.keepAlive firstKeepAlive], [.record resetReply, .record resetReply]], rfl, rfl, ?_⟩
    · have hr : r = resetReply := by simpa using hr
      subst hr
      exact ⟨by decide, fun event h => by simp [resetReply] at h⟩
    · intro g hg
      simp only [List.mem_cons, List.not_mem_nil, or_false] at hg
      rcases hg with rfl | rfl
      · exact Or.inl ⟨firstKeepAlive, rfl⟩
      · exact Or.inr (by simp)
  exact (served_iff_aligned _ pauseReads hstay (by decide) hreads).mpr haligned

/-- The reply in two reads. -/
def splitReset : List SelectResult := [.ready (str "$OK:RESET+00"), .ready (str "01=" ++ crlf)]

/-- **Not every cut is served**: when a reply arrives in two reads, no handler is called. -/
theorem splitRecord_lost :
    ¬ ∀ (maxDeviceIdleTime : ℕ) (ps : List Packet) (rs : List SelectResult),
      StaysOnline maxDeviceIdleTime 0 rs → (reads rs).flatten = stream ps →
      (∀ c ∈ reads rs, c ≠ [] ∧ c.length < buffer50K) →
        Served ps (trackerClientsrv maxDeviceIdleTime rs) := by
  intro h
  have hstay : StaysOnline 600 0 splitReset := by simp [StaysOnline, splitReset]
  have hreads : ∀ c ∈ reads splitReset, c ≠ [] ∧ c.length < buffer50K := by
    simp [reads, splitReset, buffer50K, str, crlf]
  have hserved := h 600 [.record resetReply] splitReset hstay (by decide) hreads
  rw [trackerClientsrv_eq hstay hreads] at hserved
  exact absurd hserved.records (by decide +kernel)

end G7
