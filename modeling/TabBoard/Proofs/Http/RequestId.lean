import TabBoard.Http.Callback
import TabBoard.Proofs.Queries

/-!
# Request ids in addresses

The request id of a client is the first parameter of that name in the address that the gateway saw.

**Theorem (`requestId_taken`).** An id that is written into the query of a URL by form encoding is
taken from it again, whatever else is in the query and whatever stands in front of it. A first
parameter that is blank or has a colon in it is refused, whatever follows it, and no other id is
ever taken.
-/

namespace TabBoard

namespace Http

open Url (IsTail Unmarked)

variable {url : String} {u : Url} {ps before after : List (String × String)} {v : String}

/-! ## The first parameter decides -/

theorem lookup_first {name : String} (hbefore : ∀ p ∈ before, p.1 ≠ name) :
    (before ++ (name, v) :: after).lookup name = some v := by
  induction before with
  | nil => simp
  | cons p before ih =>
    obtain ⟨hp, hrest⟩ := List.forall_mem_cons.1 hbefore
    have hother : (name == p.1) = false := beq_eq_false_iff_ne.2 (Ne.symm hp)
    rw [List.cons_append, List.lookup_cons, hother]
    exact ih hrest

theorem requestId_first (hparse : Url.parse (some forwardedBase) url = .ok u)
    (hpairs : u.queryPairs = before ++ ("request_id", v) :: after)
    (hbefore : ∀ p ∈ before, p.1 ≠ "request_id") :
    requestId url =
      if Text.trimmed v = "" then .error (.badRequest "Missing request_id in request url")
      else if (Text.trimmed v).toList.contains ':' then
        .error (.badRequest "request_id must not contain ':'")
      else .ok (Text.trimmed v) := by
  rw [requestId, hparse]
  simp only [hpairs, lookup_first hbefore, Option.map_some, Option.getD_some]

/-- A text that names no scheme and does not start with two slashes. -/
structure IsRelative (front : String) : Prop where
  bare : Url.scheme? (Url.relevant (front ++ "?")) = none
  hostless : ∀ c d rest, Url.relevant (front ++ "?") = c :: d :: rest →
    Url.SchemeKind.common.isSlash c = true → Url.SchemeKind.common.isSlash d = false

theorem exists_parse_relative {front : String} (h : IsRelative front) :
    ∃ u, Url.parse (some forwardedBase) (front ++ "?") = .ok u := by
  obtain ⟨hbare, hhostless⟩ := h
  have hparse : Url.parse (some forwardedBase) (front ++ "?") =
      Url.relative forwardedBase (Url.relevant (front ++ "?")) := by
    simp only [Url.parse, hbare]
  rw [hparse]
  generalize Url.relevant (front ++ "?") = cs at hhostless
  have hkind : Url.schemeKind forwardedBase.scheme = .common := by decide
  unfold Url.relative
  rw [hkind]
  split
  case h_1 => exact ⟨_, rfl⟩
  case h_2 => exact ⟨_, rfl⟩
  case h_3 => exact ⟨_, rfl⟩
  case h_4 c rest _ _ =>
    dsimp only
    split
    next hc =>
      cases rest with
      | nil => exact ⟨_, rfl⟩
      | cons d rest => exact ⟨_, if_neg (by rw [hhostless c d rest rfl hc]; decide)⟩
    next => exact ⟨_, rfl⟩

/-! ## What is taken -/

/-- An id that is taken is one that a client can have. -/
theorem of_requestId {id : String} (h : requestId url = .ok id) :
    id ≠ "" ∧ Text.trimmed id = id ∧ ':' ∉ id.toList := by
  rw [requestId] at h
  split at h
  · cases h
  · next u _ =>
    dsimp only at h
    split at h
    · cases h
    · next hblank =>
      split at h
      · cases h
      · next hcolon =>
        obtain rfl := Except.ok.inj h
        refine ⟨hblank, ?_, by simpa using hcolon⟩
        cases u.queryPairs.lookup "request_id" with
        | none => rfl
        | some v => exact Text.trimmed_trimmed v

/-- The request id of an address: what is written is taken, and nothing else is. -/
structure Taken : Prop where
  /-- Whatever pairs are written into the query of a URL are read from it, with a fragment behind
  them or without one. -/
  written : ∀ front tail u ps, Unmarked front.toList →
    Url.parse (some forwardedBase) (front ++ "?") = .ok u → IsTail tail →
    ∃ u', Url.parse (some forwardedBase) (front ++ "?" ++ Form.encode ps ++ tail) = .ok u' ∧
      u'.queryPairs = ps
  /-- Relative URLs are read. -/
  relative : ∀ front, IsRelative front →
    ∃ u, Url.parse (some forwardedBase) (front ++ "?") = .ok u
  /-- An id behind pairs of other names is taken as it was written, whatever pairs follow. -/
  back : ∀ front tail u before after r, Unmarked front.toList →
    Url.parse (some forwardedBase) (front ++ "?") = .ok u → IsTail tail →
    (∀ p ∈ before, p.1 ≠ "request_id") → r ≠ "" → Text.trimmed r = r → ':' ∉ r.toList →
    requestId (front ++ "?" ++ Form.encode (before ++ ("request_id", r) :: after) ++ tail) = .ok r
  /-- The first id of an address is blank: no later one counts. -/
  blank : ∀ url u before after v, Url.parse (some forwardedBase) url = .ok u →
    u.queryPairs = before ++ ("request_id", v) :: after →
    (∀ p ∈ before, p.1 ≠ "request_id") → Text.trimmed v = "" →
    requestId url = .error (.badRequest "Missing request_id in request url")
  /-- The first id of an address has a colon in it: no later one counts. -/
  colon : ∀ url u before after v, Url.parse (some forwardedBase) url = .ok u →
    u.queryPairs = before ++ ("request_id", v) :: after →
    (∀ p ∈ before, p.1 ≠ "request_id") → ':' ∈ v.toList →
    requestId url = .error (.badRequest "request_id must not contain ':'")
  /-- Only ids that a client can have are taken. -/
  sound : ∀ url id, requestId url = .ok id →
    id ≠ "" ∧ Text.trimmed id = id ∧ ':' ∉ id.toList

/-- **An id that is written into an address is taken from it**, and only the first one counts. -/
theorem requestId_taken : Taken := by
  have hwritten (front tail : String) (u : Url) (ps : List (String × String))
      (hfront : Unmarked front.toList)
      (hparse : Url.parse (some forwardedBase) (front ++ "?") = .ok u) (htail : IsTail tail) :
      ∃ u', Url.parse (some forwardedBase) (front ++ "?" ++ Form.encode ps ++ tail) = .ok u' ∧
        u'.queryPairs = ps := by
    obtain ⟨u', hparse', hpairs, -⟩ := Url.parse_query hfront hparse htail ps
    exact ⟨u', hparse', hpairs⟩
  refine ⟨hwritten, fun front => exists_parse_relative, ?_, ?_, ?_, fun url id => of_requestId⟩
  · intro front tail u before after r hfront hparse htail hbefore hr htrimmed hcolon
    obtain ⟨u', hparse', hpairs⟩ := hwritten front tail u _ hfront hparse htail
    have hnone : (Text.trimmed r).toList.contains ':' = false := by
      simpa [htrimmed] using hcolon
    rw [requestId_first hparse' hpairs hbefore, hnone, htrimmed, if_neg hr, if_neg (by simp)]
  · intro url u before after v hparse hpairs hbefore hblank
    rw [requestId_first hparse hpairs hbefore, if_pos hblank]
  · intro url u before after v hparse hpairs hbefore hcolon
    have hkept : ':' ∈ (Text.trimmed v).toList := (Text.mem_trimmed (by decide)).2 hcolon
    have hsome : Text.trimmed v ≠ "" := by
      intro hblank
      rw [hblank] at hkept
      cases hkept
    rw [requestId_first hparse hpairs hbefore, if_neg hsome, if_pos (by simpa using hkept)]

-- An absolute address, a pair in front, and a second id that would do but does not count.
example : requestId "https://dash.example.com/sse?a=b&request_id=r+9%2B&request_id=x#top" =
    .ok "r 9+" := by
  decide +kernel

end Http

end TabBoard
