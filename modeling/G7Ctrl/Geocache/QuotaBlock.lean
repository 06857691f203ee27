import G7Ctrl.Geocache.CacheRing
import G7Ctrl.Core.Runs

/-!
# Reverse geocoding and the 24 hour block

`get_address_from_latlon` asks a web service for the address of a location that is not in the
address cache.  When the service answers that the quota is used up it is asked once more, two
seconds later.  The calls that end with this answer are counted, and one too many blocks all
further calls for 24 hours or until `geocode_rate_limit_reset`.

* `lookupAddressFromLatlon`, `getAddressFromLatlon` — a lookup, and a call with its retry and the
  three variables of the block.
* `geocoder` — the system of calls and resets, on a clock that does not go back.  It keeps a
  history, the latest event first, that no step depends on.
* `CallRules` — what holds of a call after a history.
* **`geocoder_rules`** — it holds of every call of every run.
-/

namespace G7

/-- `status_codes` without `"OK"`. -/
inductive GoogleStatus
  | overQueryLimit
  | zeroResults
  | invalidRequest
  | requestDenied
  | unknownError
  deriving DecidableEq

/-- What `parse_reply` returns for a status. -/
def GoogleStatus.code : GoogleStatus → ℤ
  | overQueryLimit => -11
  | zeroResults => -12
  | invalidRequest => -13
  | requestDenied => -14
  | unknownError => -15

/-- `GOOGLE_STATUS_OVERQUOTA` -/
def googleStatusOverquota : ℤ := -11

/-- `FAILED_API_CALLS_BEFORE_BLOCKING_24H` -/
def failedApiCallsBeforeBlocking24h : ℕ := 2

/-- How a request ends: `curl_easy_perform` fails; `parse_reply` finds no document, a document of
another kind, an unknown status or no address; it finds one of the statuses; or an address. -/
inductive ApiAnswer
  | transportError
  | parseError
  | status (s : GoogleStatus)
  | address (text : CStr)
  deriving DecidableEq

/-- The return code of the lookup that makes the request. -/
def ApiAnswer.rc : ApiAnswer → ℤ
  | transportError => -1
  | parseError => -1
  | status s => s.code
  | address _ => 0

/-- A request to the web service. -/
structure ApiRequest where
  time : ℤ
  answer : ApiAnswer
  deriving DecidableEq

variable {D : Type*}

/-- What a lookup returns, leaves in the address buffer and the cache, and the request it made. -/
structure Lookup (D : Type*) where
  rc : ℤ
  address : CStr
  cache : AddressCache D
  request : Option ApiRequest

/-- `_lookup_address_from_latlon`.  The request is the one it makes if the cache has no address. -/
def lookupAddressFromLatlon (F : Doubles D) (size : ℕ) (proximity : Bool) (cache : AddressCache D)
    (lat lon : CStr) (maxlen : ℕ) (request : ApiRequest) (now : ℤ) : Lookup D :=
  match inAddressCache F size proximity cache lat lon maxlen with
  | (some address, cache) => ⟨0, address, cache, none⟩
  | (none, cache) =>
      match request.answer with
      | .address text =>
          let address := xmbStrncpy text (maxlen - 1)
          ⟨0, address, (updateAddressCache F size cache ⟨lat, lon, address, now⟩).2, some request⟩
      | answer => ⟨answer.rc, [], cache, some request⟩

/-- `geocode_rate_24h_exceeded`, `geocode_rate_24h_wait_until` and `geocode_rate_24h_try`. -/
structure GeocodeRate24h where
  exceeded : Bool := false
  waitUntil : ℤ := 0
  tries : ℕ := 0
  deriving DecidableEq

namespace GeocodeRate24h

/-- The block is on at time `ts`. -/
def blocks (v : GeocodeRate24h) (ts : ℤ) : Bool := v.exceeded && decide (ts < v.waitUntil)

/-- A block that has expired is taken off. -/
def expire (v : GeocodeRate24h) : GeocodeRate24h :=
  if v.exceeded then { v with exceeded := false, tries := 0 } else v

/-- A call has failed with `rc`: the variables, and the time when a block was set. -/
def fail (v : GeocodeRate24h) (rc now : ℤ) : GeocodeRate24h × Option ℤ :=
  if rc = googleStatusOverquota then
    if failedApiCallsBeforeBlocking24h ≤ v.tries then
      ({ v with exceeded := true, waitUntil := now + 3600 * 24 }, some now)
    else ({ v with tries := v.tries + 1 }, none)
  else (v, none)

end GeocodeRate24h

/-- The arguments of a call, the requests it makes when it has to, and the times when it starts and
ends. -/
structure GeoQuery where
  lat : CStr
  lon : CStr
  maxlen : ℕ
  start : ℤ
  first : ApiRequest
  second : ApiRequest
  finish : ℤ

/-- What happened in a call. -/
structure GeoCall (D : Type*) where
  query : GeoQuery
  rc : ℤ
  address : CStr
  requests : List ApiRequest
  /-- When the call set the block, if it did. -/
  block : Option ℤ
  before : AddressCache D
  after : AddressCache D

/-- The lookups of a call: the first, and after an exceeded quota the second one.  Their requests
are in the last component. -/
def addressLookups (F : Doubles D) (size : ℕ) (proximity : Bool) (cache : AddressCache D)
    (q : GeoQuery) :
    Lookup D × List ApiRequest :=
  let r := lookupAddressFromLatlon F size proximity cache q.lat q.lon q.maxlen q.first q.finish
  if r.rc = googleStatusOverquota then
    let r' := lookupAddressFromLatlon F size proximity r.cache q.lat q.lon q.maxlen q.second q.finish
    (r', r.request.toList ++ r'.request.toList)
  else (r, r.request.toList)

/-- `get_address_from_latlon` -/
def getAddressFromLatlon (F : Doubles D) (size : ℕ) (proximity : Bool) (v : GeocodeRate24h)
    (cache : AddressCache D) (q : GeoQuery) : GeocodeRate24h × GeoCall D :=
  if v.blocks q.start then
    (v, ⟨q, googleStatusOverquota, xstrlcpy (str "(?)") q.maxlen, [], none, cache, cache⟩)
  else
    let v := v.expire
    let (r, requests) := addressLookups F size proximity cache q
    if r.rc = 0 then (v, ⟨q, 0, r.address, requests, none, cache, r.cache⟩)
    else
      let text := if r.rc = googleStatusOverquota then str "(?)" else str "?"
      let (v, block) := v.fail r.rc q.finish
      (v, ⟨q, r.rc, xstrlcpy text q.maxlen, requests, block, cache, r.cache⟩)

/-! ## The system -/

/-- An event in the history. -/
inductive GeoEvent (D : Type*)
  | call (c : GeoCall D)
  | reset (time : ℤ)

/-- The variables of the block, the cache, the clock, and the history. -/
structure Geocoder (D : Type*) where
  rate : GeocodeRate24h := {}
  cache : AddressCache D := {}
  now : ℤ
  history : List (GeoEvent D) := []

/-- A call of one of the two functions. -/
inductive GeoAction
  | call (q : GeoQuery)
  | reset (time : ℤ)

/-- The clock does not go back during the call. -/
def GeoQuery.Ordered (q : GeoQuery) : Prop :=
  q.start ≤ q.first.time ∧ q.first.time ≤ q.second.time ∧ q.second.time ≤ q.finish

instance (q : GeoQuery) : Decidable q.Ordered := inferInstanceAs (Decidable (_ ∧ _ ∧ _))

/-- The step function. -/
def geoStep (F : Doubles D) (size : ℕ) (proximity : Bool) (g : Geocoder D) :
    GeoAction → Option (Geocoder D)
  | .call q =>
      if g.now ≤ q.start ∧ q.Ordered then
        let (rate, c) := getAddressFromLatlon F size proximity g.rate g.cache q
        some ⟨rate, c.after, q.finish, .call c :: g.history⟩
      else none
  | .reset time =>
      if g.now ≤ time then some ⟨{}, g.cache, time, .reset time :: g.history⟩ else none

/-- A server that has just started, with any cache. -/
structure Geocoder.Init (g : Geocoder D) : Prop where
  rate_eq : g.rate = {}
  history_eq : g.history = []

/-- The system of calls and resets. -/
def geocoder (F : Doubles D) (size : ℕ) (proximity : Bool) : StepSystem (Geocoder D) GeoAction where
  init := Geocoder.Init
  step := geoStep F size proximity

/-! ## The rules -/

/-- The last request of the call was answered with an exceeded quota. -/
def GeoCall.endsOverQuota (c : GeoCall D) : Bool :=
  c.requests.getLast?.any fun r => r.answer = .status .overQueryLimit

/-- How many calls have ended so since the start, the last reset or the last block. -/
def quotaCalls : List (GeoEvent D) → ℕ
  | [] => 0
  | .reset _ :: _ => 0
  | .call c :: h => if c.block.isSome then 0 else c.endsOverQuota.toNat + quotaCalls h

/-- The times of the blocks since the last reset. -/
def blocksSet : List (GeoEvent D) → List ℤ
  | [] => []
  | .reset _ :: _ => []
  | .call c :: h => c.block.toList ++ blocksSet h

/-- The entries of the cache are the same. -/
structure SameEntries (a b : AddressCache D) : Prop where
  entries : a.entries = b.entries
  idx : a.idx = b.idx
  num : a.num = b.num

/-- **The rules of the quota** for a call after a history. -/
structure CallRules (c : GeoCall D) (h : List (GeoEvent D)) : Prop where
  /-- At most two requests. -/
  requests : c.requests.length ≤ 2
  /-- A block is set when the quota was exceeded once too often, at the time the call ends. -/
  block : ∀ t, c.block = some t → t = c.query.finish ∧ c.endsOverQuota = true ∧
    failedApiCallsBeforeBlocking24h ≤ quotaCalls h
  /-- There is no request in the 24 hours after a block that was not reset. -/
  quiet : ∀ t ∈ blocksSet h, ∀ r ∈ c.requests, t + 24 * 3600 ≤ r.time
  /-- A call that fails says so in the buffer and adds nothing to the cache. -/
  failure : 4 ≤ c.query.maxlen → c.rc ≠ 0 →
    (c.address = str "?" ∨ c.address = str "(?)") ∧ SameEntries c.before c.after

/-! ## A call -/

section Call

variable {F : Doubles D} {size : ℕ} {proximity : Bool} {cache : AddressCache D}

lemma rc_eq_overquota_iff {a : ApiAnswer} :
    a.rc = googleStatusOverquota ↔ a = .status .overQueryLimit := by
  cases a with
  | status s => cases s <;> decide
  | transportError => decide
  | parseError => decide
  | address text => simp [ApiAnswer.rc, googleStatusOverquota]

lemma SameEntries.trans {a b c : AddressCache D} (h : SameEntries a b) (h' : SameEntries b c) :
    SameEntries a c :=
  ⟨h.entries.trans h'.entries, h.idx.trans h'.idx, h.num.trans h'.num⟩

/-- **What a lookup does**: it finds the address in the cache, or makes its request and returns
what the answer says.  Without an address the cache keeps its entries. -/
lemma lookupAddressFromLatlon_spec (lat lon : CStr) (maxlen : ℕ) (request : ApiRequest) (now : ℤ)
    {r : Lookup D}
    (h : lookupAddressFromLatlon F size proximity cache lat lon maxlen request now = r) :
    (r.rc = 0 ∧ r.request = none ∨ r.rc = request.answer.rc ∧ r.request = some request) ∧
      (r.rc ≠ 0 → SameEntries cache r.cache) := by
  rw [lookupAddressFromLatlon, inAddressCache] at h
  cases hscan : addressScan cache.entries
      (AddressEntry.matchesAt F proximity lat lon) size 0 with
  | some found =>
      simp only [hscan] at h
      subst h
      exact ⟨Or.inl ⟨rfl, rfl⟩, fun h0 => absurd rfl h0⟩
  | none =>
      simp only [hscan] at h
      cases hanswer : request.answer with
      | address text =>
          simp only [hanswer] at h
          subst h
          exact ⟨Or.inr ⟨rfl, rfl⟩, fun h0 => absurd rfl h0⟩
      | transportError | parseError | status s =>
          simp only [hanswer] at h
          subst h
          exact ⟨Or.inr ⟨rfl, rfl⟩, fun _ => ⟨rfl, rfl, rfl⟩⟩

/-- **The lookups of a call**: at most two requests, the last one answered with an exceeded quota if
the call is to return this. -/
lemma addressLookups_spec (q : GeoQuery) {r : Lookup D} {requests : List ApiRequest}
    (h : addressLookups F size proximity cache q = (r, requests)) :
    requests.length ≤ 2 ∧ (∀ r' ∈ requests, r' = q.first ∨ r' = q.second) ∧
      (r.rc = googleStatusOverquota → ∃ r', requests.getLast? = some r' ∧
        r'.answer = .status .overQueryLimit) ∧
      (r.rc ≠ 0 → SameEntries cache r.cache) := by
  rw [addressLookups] at h
  generalize hr₁ : lookupAddressFromLatlon F size proximity cache q.lat q.lon q.maxlen q.first
    q.finish = r₁ at h
  obtain ⟨hrequest₁, hsame₁⟩ := lookupAddressFromLatlon_spec _ _ _ _ _ hr₁
  have hzero : googleStatusOverquota ≠ 0 := by decide
  by_cases hover : r₁.rc = googleStatusOverquota
  · simp only [if_pos hover] at h
    generalize hr₂ : lookupAddressFromLatlon F size proximity r₁.cache q.lat q.lon q.maxlen
      q.second q.finish = r₂ at h
    obtain ⟨hrequest₂, hsame₂⟩ := lookupAddressFromLatlon_spec _ _ _ _ _ hr₂
    obtain ⟨rfl, rfl⟩ := Prod.mk.inj h
    have hfirst : r₁.request = some q.first := by
      rcases hrequest₁ with ⟨h0, -⟩ | ⟨-, h1⟩
      · exact absurd (hover.symm.trans h0) hzero
      · exact h1
    have hsame := hsame₁ (hover ▸ hzero)
    rcases hrequest₂ with ⟨h0, hnone⟩ | ⟨hrc, hsecond⟩
    · rw [hfirst, hnone]
      refine ⟨by simp, by simp, fun h => absurd (h.symm.trans h0) hzero, fun h => absurd h0 h⟩
    · rw [hfirst, hsecond]
      refine ⟨by simp, by simp, fun h => ⟨q.second, by simp, ?_⟩, fun h => hsame.trans (hsame₂ h)⟩
      exact rc_eq_overquota_iff.mp (hrc ▸ h)
  · simp only [if_neg hover] at h
    obtain ⟨rfl, rfl⟩ := Prod.mk.inj h
    refine ⟨?_, ?_, fun h => absurd h hover, hsame₁⟩
    · rcases hrequest₁ with ⟨-, h1⟩ | ⟨-, h1⟩ <;> simp [h1]
    · rcases hrequest₁ with ⟨-, h1⟩ | ⟨-, h1⟩ <;> simp [h1]

/-- What the variables of the block are after a call that was not refused. -/
inductive RateAfter (v v' : GeocodeRate24h) (overQuota : Bool) (now : ℤ) : Option ℤ → Prop
  | kept : v' = v → RateAfter v v' overQuota now none
  | counted : overQuota = true → v' = { v with tries := v.tries + 1 } →
      RateAfter v v' overQuota now none
  | blocked : overQuota = true → failedApiCallsBeforeBlocking24h ≤ v.tries →
      v' = { v with exceeded := true, waitUntil := now + 3600 * 24 } →
      RateAfter v v' overQuota now (some now)

/-- **What a call does**: it is refused, or it takes an expired block off, makes its lookups and
counts or blocks when they end with an exceeded quota. -/
lemma getAddressFromLatlon_spec (v : GeocodeRate24h) (q : GeoQuery) {v' : GeocodeRate24h}
    {c : GeoCall D} (h : getAddressFromLatlon F size proximity v cache q = (v', c)) :
    c.query = q ∧ c.requests.length ≤ 2 ∧
      (4 ≤ q.maxlen → c.rc ≠ 0 →
        (c.address = str "?" ∨ c.address = str "(?)") ∧ SameEntries c.before c.after) ∧
      (v.blocks q.start = true ∧ v' = v ∧ c.requests = [] ∧ c.block = none ∨
        v.blocks q.start = false ∧ (∀ r ∈ c.requests, r = q.first ∨ r = q.second) ∧
          RateAfter v.expire v' c.endsOverQuota q.finish c.block) := by
  have htext : ∀ text : CStr, text.length ≤ 3 → 4 ≤ q.maxlen → xstrlcpy text q.maxlen = text := by
    intro text hlen hmax
    exact List.take_of_length_le (by omega)
  rw [getAddressFromLatlon] at h
  cases hblock : v.blocks q.start with
  | true =>
      rw [hblock, if_pos rfl] at h
      obtain ⟨rfl, rfl⟩ := Prod.mk.inj h
      refine ⟨rfl, Nat.zero_le _, fun hmax _ => ⟨Or.inr ?_, rfl, rfl, rfl⟩,
        Or.inl ⟨rfl, rfl, rfl, rfl⟩⟩
      exact htext _ (by decide) hmax
  | false =>
      rw [hblock, if_neg Bool.false_ne_true] at h
      rcases hlookups : addressLookups F size proximity cache q with ⟨r, requests⟩
      obtain ⟨hlen, hmem, hover, hsame⟩ := addressLookups_spec q hlookups
      simp only [hlookups] at h
      by_cases hrc : r.rc = 0
      · rw [if_pos hrc] at h
        obtain ⟨rfl, rfl⟩ := Prod.mk.inj h
        exact ⟨rfl, hlen, fun _ h0 => absurd rfl h0, Or.inr ⟨rfl, hmem, .kept rfl⟩⟩
      · rw [if_neg hrc] at h
        obtain ⟨rfl, rfl⟩ := Prod.mk.inj h
        refine ⟨rfl, hlen, fun hmax _ => ⟨?_, hsame hrc⟩, Or.inr ⟨rfl, hmem, ?_⟩⟩
        · dsimp only
          split_ifs
          · exact Or.inr (htext _ (by decide) hmax)
          · exact Or.inl (htext _ (by decide) hmax)
        · have hends : r.rc = googleStatusOverquota →
              (requests.getLast?.any fun r => r.answer = .status .overQueryLimit) = true := by
            intro hquota
            obtain ⟨r', hlast, hanswer⟩ := hover hquota
            rw [hlast]
            simpa using hanswer
          dsimp only [GeocodeRate24h.fail]
          split_ifs with hquota hmany
          · exact .blocked (hends hquota) hmany rfl
          · exact .counted (hends hquota) rfl
          · exact .kept rfl

end Call

/-! ## Runs -/

section Runs

variable {F : Doubles D} {size : ℕ} {proximity : Bool}

/-- The invariant of a run: without a block no more calls are counted than have ended with an
exceeded quota, every block is over or still on, and every call has followed the rules. -/
structure GeocoderOk (g : Geocoder D) : Prop where
  tries : g.rate.exceeded = false → g.rate.tries ≤ quotaCalls g.history
  blocks : ∀ t ∈ blocksSet g.history, t + 3600 * 24 ≤ g.now ∨
    (g.rate.exceeded = true ∧ t + 3600 * 24 ≤ g.rate.waitUntil)
  rules : ∀ c h, .call c :: h <:+ g.history → CallRules c h

lemma GeocoderOk.of_init {g : Geocoder D} (h : g.Init) : GeocoderOk g := by
  obtain ⟨hrate, hhistory⟩ := h
  refine ⟨?_, ?_, ?_⟩
  · simp [hrate]
  · simp [hhistory, blocksSet]
  · intro c h hsuffix
    rw [hhistory] at hsuffix
    exact absurd (List.suffix_nil.mp hsuffix) (by simp)

/-- A reset. -/
lemma GeocoderOk.reset {g : Geocoder D} (h : GeocoderOk g) (time : ℤ) :
    GeocoderOk ⟨{}, g.cache, time, .reset time :: g.history⟩ := by
  refine ⟨fun _ => Nat.zero_le _, by simp [blocksSet], fun c older hsuffix => ?_⟩
  rcases List.suffix_cons_iff.mp hsuffix with heq | hsuffix
  · cases heq
  · exact h.rules c older hsuffix

/-- A call that is not refused starts after all blocks. -/
lemma GeocoderOk.le_start {g : Geocoder D} (h : GeocoderOk g) {start : ℤ} (hnow : g.now ≤ start)
    (hblocks : g.rate.blocks start = false) : ∀ t ∈ blocksSet g.history, t + 3600 * 24 ≤ start := by
  intro t ht
  rcases h.blocks t ht with hover | ⟨hon, huntil⟩
  · omega
  · rw [GeocodeRate24h.blocks, hon, Bool.true_and, decide_eq_false_iff_not] at hblocks
    omega

/-- What is counted when an expired block is taken off. -/
lemma GeocoderOk.expire_tries {g : Geocoder D} (h : GeocoderOk g) :
    g.rate.expire.exceeded = false ∧ g.rate.expire.tries ≤ quotaCalls g.history := by
  rw [GeocodeRate24h.expire]
  split_ifs with hon
  · exact ⟨rfl, Nat.zero_le _⟩
  · exact ⟨Bool.eq_false_iff.mpr hon, h.tries (Bool.eq_false_iff.mpr hon)⟩

/-- **A call follows the rules** and keeps the invariant. -/
lemma GeocoderOk.call {g : Geocoder D} (h : GeocoderOk g) {q : GeoQuery} (hnow : g.now ≤ q.start)
    (hq : q.Ordered) {rate : GeocodeRate24h} {c : GeoCall D}
    (hcall : getAddressFromLatlon F size proximity g.rate g.cache q = (rate, c)) :
    GeocoderOk ⟨rate, c.after, q.finish, .call c :: g.history⟩ := by
  obtain ⟨hstart, hsecond, hfinish⟩ := hq
  obtain ⟨rfl, hlen, hfail, hcases⟩ := getAddressFromLatlon_spec _ _ hcall
  obtain ⟨-, htries⟩ := h.expire_tries
  have hrules : CallRules c g.history := by
    refine ⟨hlen, fun t ht => ?_, fun t ht r hr => ?_, hfail⟩
    · rcases hcases with ⟨-, -, -, hnone⟩ | ⟨-, -, hrate⟩
      · rw [hnone] at ht
        cases ht
      · rw [ht] at hrate
        cases hrate with
        | blocked hover hmany _ => exact ⟨rfl, hover, hmany.trans htries⟩
    · rcases hcases with ⟨-, -, hnone, -⟩ | ⟨hon, hmem, -⟩
      · rw [hnone] at hr
        cases hr
      · have hle := h.le_start hnow hon t ht
        rcases hmem r hr with rfl | rfl
        · omega
        · omega
  refine ⟨fun hoff => ?_, fun t ht => ?_, fun c' older hsuffix => ?_⟩
  · rcases hcases with ⟨hon, rfl, -, -⟩ | ⟨-, -, hrate⟩
    · rw [GeocodeRate24h.blocks, hoff] at hon
      cases hon
    · dsimp only [quotaCalls]
      cases hblock : c.block with
      | none =>
          rw [hblock] at hrate
          cases hrate with
          | kept heq =>
              subst heq
              exact htries.trans (Nat.le_add_left _ _)
          | counted hover heq =>
              subst heq
              rw [hover]
              dsimp only
              simp only [Option.isSome_none, Bool.false_eq_true, if_false, Bool.toNat_true]
              omega
      | some t =>
          rw [hblock] at hrate
          cases hrate with
          | blocked _ _ heq =>
              subst heq
              cases hoff
  · rw [blocksSet, List.mem_append, Option.mem_toList] at ht
    rcases hcases with ⟨-, rfl, -, hnone⟩ | ⟨hon, -, hrate⟩
    · rw [hnone] at ht
      have hold := ht.resolve_left (by simp)
      exact (h.blocks t hold).imp_left fun hle => by dsimp only; omega
    · rcases ht with hblock | hold
      · rw [Option.mem_def.mp hblock] at hrate
        cases hrate with
        | blocked _ _ heq =>
            subst heq
            exact Or.inr ⟨rfl, le_rfl⟩
      · have hle := h.le_start hnow hon t hold
        exact Or.inl (by dsimp only; omega)
  · rcases List.suffix_cons_iff.mp hsuffix with heq | hsuffix
    · cases heq
      exact hrules
    · exact h.rules c' older hsuffix

/-- **The rules of the quota hold of every call of every run.** -/
theorem geocoder_rules {g : Geocoder D} (h : (geocoder F size proximity).Reachable g)
    {c : GeoCall D} {older : List (GeoEvent D)} (hc : .call c :: older <:+ g.history) :
    CallRules c older := by
  have hok : GeocoderOk g := by
    refine StepSystem.ReachableIf.invariant (fun _ => GeocoderOk.of_init) ?_ h
    intro g a g' _ hg _ hstep
    cases a with
    | call q =>
        simp only [geocoder, geoStep] at hstep
        split_ifs at hstep with hguard
        cases hstep
        exact hg.call hguard.1 hguard.2 rfl
    | reset time =>
        simp only [geocoder, geoStep] at hstep
        split_ifs at hstep
        cases hstep
        exact hg.reset time
  exact hok.rules c older hc

end Runs

/-- A call whose requests are both answered with an exceeded quota. -/
def overQuotaQuery (start : ℤ) : GeoQuery where
  lat := str "59.366545"
  lon := str "17.959445"
  maxlen := 64
  start := start
  first := ⟨start, .status .overQueryLimit⟩
  second := ⟨start + 2, .status .overQueryLimit⟩
  finish := start + 2

/-- The third such call sets the block. -/
theorem thirdOverQuota_blocks : ∃ (g : Geocoder ℚ) (c : GeoCall ℚ) (older : List (GeoEvent ℚ)),
    (geocoder decimalDoubles 1 false).run ⟨{}, {}, 0, []⟩
      [.call (overQuotaQuery 10), .call (overQuotaQuery 20), .call (overQuotaQuery 30)] = some g ∧
    g.history = .call c :: older ∧ c.block = some 32 ∧ CallRules c older := by
  have hrun : (geocoder decimalDoubles 1 false).run ⟨{}, {}, 0, []⟩
      [.call (overQuotaQuery 10), .call (overQuotaQuery 20), .call (overQuotaQuery 30)]
        = some _ := rfl
  have hinit : (⟨{}, {}, 0, []⟩ : Geocoder ℚ).Init := ⟨rfl, rfl⟩
  have hreach := StepSystem.reachable_run (S := geocoder decimalDoubles 1 false) hinit hrun
  exact ⟨_, _, _, hrun, rfl, rfl, geocoder_rules hreach (List.suffix_refl _)⟩

end G7
