import TabBoard.Decimal.Natural
import TabBoard.Proofs.Queries

/-!
# The server that an address names

Behind the slashes of a web address stands its server: perhaps a user, a host, and perhaps a port
(`Server.In`). The user ends at the last `@`, and the host at the first colon outside of brackets.
Every text has these parts (`exists_in`), and they alone decide whether it is a URL: there has to be
a host that can be read, and a port has to be a number of 16 bits (`In.authority?_of_usable`,
`In.authority?_of_not_usable`). What stands in front of the server of a web address, and around the
address, is read away before (`ofText_web`).

Which hosts can be read depends on the reading of names. Nothing is assumed of it here but that
names of ASCII without encoded labels stand for themselves in lower case (`Idna.Lawful`), which is
so for the reading that the dashboard runs with. Host names are among them (`HostName.usable`): a
name of letters, digits and hyphens in lower case is read as it is.
-/

namespace TabBoard.Url

open Text

variable {cs rest : List Char} {scheme : String}

/-! ## The parts of a server -/

/-- A character that ends the server. -/
def endsServer (c : Char) : Bool := SchemeKind.common.isSlash c || isPathEnd c

/-- Whether a bracket is open behind some characters, if it was or was not before them. -/
def isOpenFrom (inBrackets : Bool) : List Char → Bool
  | [] => inBrackets
  | c :: cs => isOpenFrom (if c == '[' then true else if c == ']' then false else inBrackets) cs

/-- The text of a port: nothing, or digits behind a colon that write a number of 16 bits. There may
be no digits. -/
def IsPort (port : List Char) : Prop :=
  port = [] ∨ ∃ digits, port = ':' :: digits ∧ (∀ d ∈ digits, d.isDigit = true) ∧
    Decimal.ofDigits digits ≤ Decimal.max16

/-- The server of an address. -/
structure Server where
  /-- The user and password, with the `@` behind them. -/
  user : List Char := []
  host : List Char
  /-- The port, with the colon before it. -/
  port : List Char := []
  deriving Repr, DecidableEq

namespace Server

variable {p : Server}

/-- The server is the one at the front of the characters, and the rest stands behind it. -/
structure In (p : Server) (cs rest : List Char) : Prop where
  whole : cs = p.user ++ (p.host ++ p.port) ++ rest
  user : p.user = [] ∨ ∃ name, p.user = name ++ ['@']
  last : '@' ∉ p.host ++ p.port
  inside : ∀ c ∈ p.user ++ (p.host ++ p.port), endsServer c = false
  rest : ∀ c ∈ rest.head?, endsServer c = true
  colon : ∀ front behind, p.host = front ++ ':' :: behind → isOpenFrom false front = true
  port : p.port = [] ∨ (∃ digits, p.port = ':' :: digits) ∧ isOpenFrom false p.host = false

/-- There is a host that can be read, and the port can be. -/
structure Usable [Idna] (p : Server) : Prop where
  named : p.host ≠ []
  host : ∃ host, Host.ofChars p.host = .ok host
  port : IsPort p.port

end Server

/-! ## Finding the parts -/

theorem exists_host (inBrackets : Bool) (cs : List Char) :
    ∃ host port, cs = host ++ port ∧
      (∀ front behind, host = front ++ ':' :: behind → isOpenFrom inBrackets front = true) ∧
      (port = [] ∨ (∃ digits, port = ':' :: digits) ∧ isOpenFrom inBrackets host = false) := by
  induction cs generalizing inBrackets with
  | nil => exact ⟨[], [], rfl, by simp, .inl rfl⟩
  | cons c cs ih =>
    by_cases hstop : c = ':' ∧ inBrackets = false
    · obtain ⟨rfl, rfl⟩ := hstop
      exact ⟨[], ':' :: cs, rfl, by simp, .inr ⟨⟨cs, rfl⟩, rfl⟩⟩
    · obtain ⟨host, port, rfl, hcolon, hport⟩ :=
        ih (if c == '[' then true else if c == ']' then false else inBrackets)
      refine ⟨c :: host, port, rfl, ?_, hport⟩
      rintro (_ | ⟨d, front⟩) behind heq
      · obtain ⟨rfl, -⟩ := List.cons.inj heq
        simpa [isOpenFrom] using hstop
      · obtain ⟨rfl, htail⟩ := List.cons.inj heq
        exact hcolon front behind htail

/-- What stands behind the last `@`. -/
theorem exists_user (cs : List Char) :
    ∃ user behind, cs = user ++ behind ∧ (user = [] ∨ ∃ name, user = name ++ ['@']) ∧
      '@' ∉ behind := by
  induction cs with
  | nil => exact ⟨[], [], rfl, .inl rfl, List.not_mem_nil⟩
  | cons c cs ih =>
    obtain ⟨user, behind, rfl, huser, hbehind⟩ := ih
    obtain rfl | ⟨name, rfl⟩ := huser
    · by_cases hat : c = '@'
      · exact ⟨[c], behind, rfl, .inr ⟨[], by rw [hat]; rfl⟩, hbehind⟩
      · exact ⟨[], c :: behind, rfl, .inl rfl, by simpa [Ne.symm hat] using hbehind⟩
    · exact ⟨c :: (name ++ ['@']), behind, rfl, .inr ⟨c :: name, rfl⟩, hbehind⟩

/-- **Every text has a server at its front**, though there may be nothing in it. -/
theorem Server.exists_in (cs : List Char) : ∃ p rest, Server.In p cs rest := by
  obtain ⟨user, behind, hserver, huser, hlast⟩ := exists_user (cs.takeWhile fun c => !endsServer c)
  obtain ⟨host, port, rfl, hcolon, hport⟩ := exists_host false behind
  refine ⟨⟨user, host, port⟩, cs.dropWhile fun c => !endsServer c, ?_, huser, hlast, ?_, ?_, hcolon,
    hport⟩
  · rw [← hserver, List.takeWhile_append_dropWhile]
  · intro c hc
    rw [← hserver] at hc
    simpa using List.mem_takeWhile_imp hc
  · intro c hc
    simpa using head_dropWhile _ cs c hc

/-! ## Reading the parts -/

theorem spanHost_ended {inBrackets : Bool} {host tail : List Char}
    (hinside : ∀ c ∈ host, endsServer c = false)
    (hcolon : ∀ front behind, host = front ++ ':' :: behind → isOpenFrom inBrackets front = true)
    (htail : ∀ c ∈ tail.head?,
      endsServer c = true ∨ c = ':' ∧ isOpenFrom inBrackets host = false) :
    spanHost .common inBrackets (host ++ tail) = (host, tail) := by
  induction host generalizing inBrackets with
  | nil =>
    cases tail with
    | nil => rfl
    | cons c tail =>
      have hstop : ((c == ':' && !inBrackets) || SchemeKind.common.isSlash c || isPathEnd c) =
          true := by
        obtain hend | ⟨rfl, hclosed⟩ := htail c rfl
        · rw [Bool.or_assoc, ← endsServer, hend, Bool.or_true]
        · simp [show inBrackets = false from hclosed]
      rw [List.nil_append, spanHost, if_pos hstop]
  | cons c host ih =>
    have hgoes : ¬ ((c == ':' && !inBrackets) || SchemeKind.common.isSlash c || isPathEnd c) =
        true := by
      have hend : endsServer c = false := hinside c List.mem_cons_self
      rw [Bool.or_assoc, ← endsServer, hend, Bool.or_false, Bool.and_eq_true, not_and]
      intro hc
      rw [beq_iff_eq] at hc
      have hopen : inBrackets = true := hcolon [] host (by rw [hc]; rfl)
      simp [hopen]
    have hrest := ih (fun d hd => hinside d (.tail c hd))
      (fun front behind heq => hcolon (c :: front) behind (by rw [heq]; rfl)) htail
    rw [List.cons_append, spanHost, if_neg hgoes]
    simp only [hrest]

namespace Server

variable {p : Server}

theorem In.server (h : p.In cs rest) :
    cs.takeWhile (fun c => !(SchemeKind.common.isSlash c || isPathEnd c)) =
        p.user ++ (p.host ++ p.port) ∧
      cs.dropWhile (fun c => !(SchemeKind.common.isSlash c || isPathEnd c)) = rest := by
  have hinside : ∀ c ∈ p.user ++ (p.host ++ p.port), (!endsServer c) = true :=
    fun c hc => by rw [h.inside c hc]; rfl
  have hrest : ∀ c ∈ rest.head?, (!endsServer c) = false := fun c hc => by rw [h.rest c hc]; rfl
  rw [h.whole]
  exact ⟨takeWhile_ended hinside hrest, dropWhile_ended hinside hrest⟩

/-- The user is read up to the last `@`. Only where nothing follows it the reading may end there. -/
theorem In.userInfo (h : p.In cs rest) :
    (p.host = [] ∧ userInfo? .common cs = .error .emptyHost) ∨
      ∃ name password,
        userInfo? .common cs = .ok (name, password, p.host ++ (p.port ++ rest)) := by
  obtain ⟨htake, hdrop⟩ := h.server
  have hwhole := h.whole
  unfold userInfo?
  simp only [htake, hdrop]
  obtain huser | ⟨name, huser⟩ := h.user
  · have hnone : (p.user ++ (p.host ++ p.port)).contains '@' = false := by
      rw [huser, List.nil_append, ← Bool.not_eq_true, List.contains_iff_mem]
      exact h.last
    rw [hnone]
    refine .inr ⟨"", "", ?_⟩
    rw [hwhole, huser, List.nil_append, List.append_assoc]
    rfl
  · have hsome : (p.user ++ (p.host ++ p.port)).contains '@' = true := by
      rw [huser, List.contains_iff_mem]
      simp
    have hreverse : (p.user ++ (p.host ++ p.port)).reverse =
        (p.host ++ p.port).reverse ++ '@' :: name.reverse := by
      rw [huser]
      simp
    have hbehind : ∀ c ∈ (p.host ++ p.port).reverse, (c != '@') = true := by
      intro c hc
      rw [bne_iff_ne]
      rintro rfl
      exact h.last (List.mem_reverse.1 hc)
    have hat : ∀ c ∈ ('@' :: name.reverse).head?, (c != '@') = false := by
      rintro c ⟨⟩
      rfl
    rw [hsome, hreverse, takeWhile_ended hbehind hat, dropWhile_ended hbehind hat,
      List.reverse_reverse, List.drop_one, List.tail_cons, List.reverse_reverse, List.append_assoc]
    simp only [if_true]
    split_ifs with hempty
    · refine .inl ⟨?_, rfl⟩
      simp only [Bool.and_eq_true, List.isEmpty_iff, List.append_eq_nil_iff] at hempty
      exact hempty.1.2.1
    · cases splitOnce ':' name with
      | none => exact .inr ⟨_, _, rfl⟩
      | some pair => exact .inr ⟨_, _, rfl⟩

theorem In.spanHost (h : p.In cs rest) :
    Url.spanHost .common false (p.host ++ (p.port ++ rest)) = (p.host, p.port ++ rest) := by
  refine spanHost_ended (fun c hc => h.inside c (by simp [hc])) h.colon ?_
  obtain hport | ⟨⟨digits, hport⟩, hclosed⟩ := h.port
  · rw [hport]
    exact fun c hc => .inl (h.rest c hc)
  · rw [hport]
    rintro c ⟨⟩
    exact .inr ⟨rfl, hclosed⟩

end Server

theorem endsServer_iff (c : Char) :
    endsServer c = true ↔ c = '/' ∨ c = '\\' ∨ c = '?' ∨ c = '#' := by
  simp [endsServer, SchemeKind.isSlash, isPathEnd, or_assoc]

theorem not_isDigit_of_endsServer {c : Char} (h : endsServer c = true) : c.isDigit = false := by
  obtain rfl | rfl | rfl | rfl := (endsServer_iff c).1 h <;> rfl

/-- Digits up to the end of the server are a port if they are not too large. -/
theorem port?_digits (scheme : String) {digits : List Char}
    (hdigits : ∀ d ∈ digits, d.isDigit = true) (hrest : ∀ c ∈ rest.head?, endsServer c = true) :
    port? scheme (digits ++ rest) =
      if Decimal.max16 < Decimal.ofDigits digits then .error .invalidPort
      else if digits.isEmpty ∨ defaultPort? scheme = some (Decimal.ofDigits digits) then
        .ok (none, rest)
      else .ok (some (Decimal.ofDigits digits), rest) := by
  have hend : ∀ c ∈ rest.head?, c.isDigit = false :=
    fun c hc => not_isDigit_of_endsServer (hrest c hc)
  unfold port?
  simp only [takeWhile_ended hdigits hend, dropWhile_ended hdigits hend]
  cases rest with
  | nil =>
    simp only [Bool.not_true, Bool.false_eq_true, or_false]
    rfl
  | cons c rest =>
    have hatEnd : (c == '/' || c == '\\' || c == '?' || c == '#') = true := by
      simpa [or_assoc] using (endsServer_iff c).1 (hrest c rfl)
    simp only [hatEnd, Bool.not_true, Bool.false_eq_true, or_false]
    rfl

/-- Anything else than digits in front of the end is no port. -/
theorem port?_other (scheme : String) {front behind : List Char} {c : Char}
    (hfront : ∀ d ∈ front, d.isDigit = true) (hc : c.isDigit = false)
    (hend : endsServer c = false) : port? scheme (front ++ c :: behind) = .error .invalidPort := by
  have hhead : ∀ d ∈ (c :: behind).head?, d.isDigit = false := by
    rintro d ⟨⟩
    exact hc
  have hnotEnd : (c == '/' || c == '\\' || c == '?' || c == '#') = false := by
    rw [← Bool.not_eq_true] at hend ⊢
    simpa [or_assoc] using (endsServer_iff c).not.1 hend
  unfold port?
  simp only [takeWhile_ended hfront hhead, dropWhile_ended hfront hhead, hnotEnd]
  simp

namespace Server

variable {p : Server}

/-- The number of the port that is written. -/
def number (p : Server) : Option Nat :=
  if p.port.tail = [] then none else some (Decimal.ofDigits p.port.tail)

/-- A port that fits is read, and the one that goes without saying may be left out. -/
theorem In.behindHost_of_fits (h : p.In cs rest) (hnamed : p.host ≠ []) (hfits : IsPort p.port)
    (scheme user password : String) (host : Host) :
    ∃ port, behindHost scheme user password p.host host (p.port ++ rest) =
        .ok ({ user, password, host, port }, rest) ∧
      port.or (defaultPort? scheme) = p.number.or (defaultPort? scheme) := by
  have hfull : p.host.isEmpty = false := by simpa using hnamed
  unfold behindHost
  simp only [hfull, Bool.false_eq_true, false_and, if_false]
  obtain hport | ⟨digits, hport, hdigits, hlimit⟩ := hfits
  · refine ⟨none, ?_, by rw [number, hport]; rfl⟩
    rw [hport, List.nil_append]
    cases hrest : rest with
    | nil => rfl
    | cons c tail =>
      have hc : c ≠ ':' := by
        rintro rfl
        exact absurd (h.rest ':' (by rw [hrest]; rfl)) (by decide)
      split
      · next heq => exact absurd (List.cons.inj heq).1 hc
      · rfl
  · have hread := port?_digits scheme hdigits h.rest
    rw [if_neg (Nat.not_lt.2 hlimit)] at hread
    have hnumber : p.number = if digits = [] then none else some (Decimal.ofDigits digits) := by
      rw [number, hport]
      rfl
    rw [hport, List.cons_append]
    simp only [hread]
    split_ifs with hdefault
    · refine ⟨none, rfl, ?_⟩
      rw [hnumber]
      obtain hempty | hdefault := hdefault
      · rw [List.isEmpty_iff.1 hempty, if_pos rfl]
      · split_ifs
        · rfl
        · simp [hdefault]
    · refine ⟨some (Decimal.ofDigits digits), rfl, ?_⟩
      rw [not_or, List.isEmpty_iff] at hdefault
      rw [hnumber, if_neg hdefault.1]

theorem In.behindHost_of_not_fits (h : p.In cs rest) (hnamed : p.host ≠ [])
    (hfits : ¬ IsPort p.port) (scheme user password : String) (host : Host) :
    behindHost scheme user password p.host host (p.port ++ rest) = .error .invalidPort := by
  have hfull : p.host.isEmpty = false := by simpa using hnamed
  unfold behindHost
  simp only [hfull, Bool.false_eq_true, false_and, if_false]
  obtain hport | ⟨⟨text, hport⟩, -⟩ := h.port
  · exact absurd (.inl hport) hfits
  · have hread : port? scheme (text ++ rest) = .error .invalidPort := by
      have hfront : ∀ d ∈ text.takeWhile Char.isDigit, d.isDigit = true :=
        fun d hd => List.mem_takeWhile_imp hd
      cases hbehind : text.dropWhile Char.isDigit with
      | nil =>
        have hdigits : ∀ d ∈ text, d.isDigit = true := List.dropWhile_eq_nil_iff.1 hbehind
        have hlarge : Decimal.max16 < Decimal.ofDigits text := by
          by_contra hsmall
          exact hfits (.inr ⟨text, hport, hdigits, Nat.le_of_not_lt hsmall⟩)
        rw [port?_digits scheme hdigits h.rest, if_pos hlarge]
      | cons c behind =>
        have htext : text = text.takeWhile Char.isDigit ++ c :: behind := by
          rw [← hbehind, List.takeWhile_append_dropWhile]
        have hc : c.isDigit = false := head_dropWhile _ text c (by rw [hbehind]; rfl)
        have hend : endsServer c = false := h.inside c (by rw [hport, htext]; simp)
        rw [htext, List.append_assoc, List.cons_append]
        exact port?_other scheme hfront hc hend
    rw [hport, List.cons_append]
    simp only [hread]
    rfl

end Server

/-- How the reading of a server can fail. -/
def serverFaults : List Error :=
  [.emptyHost, .invalidPort, .invalidIpv4, .invalidIpv6, .invalidDomain]

theorem Host.error_mem_serverFaults [Idna] {e : Error} (h : Host.ofChars cs = .error e) :
    e ∈ serverFaults := by
  unfold Host.ofChars Host.ofBrackets at h
  split_ifs at h with hbrackets hclosed
  · split at h <;> cases h
    decide
  · cases h
    decide
  · split at h
    · cases h
      decide
    · cases h
      decide
    · split_ifs at h
      split at h <;> cases h
      decide

namespace Server

variable {p : Server}

/-- **A server that is usable is read**, with its host and its port. -/
theorem In.authority?_of_usable [Idna] (h : p.In cs rest) (husable : p.Usable)
    (hscheme : schemeKind scheme = .common) :
    ∃ a, authority? scheme cs = .ok (a, rest) ∧ Host.ofChars p.host = .ok a.host ∧
      a.port.or (defaultPort? scheme) = p.number.or (defaultPort? scheme) := by
  obtain ⟨hempty, -⟩ | ⟨user, password, hread⟩ := h.userInfo
  · exact absurd hempty husable.named
  · obtain ⟨host, hhost⟩ := husable.host
    obtain ⟨port, hbehind, hport⟩ :=
      h.behindHost_of_fits husable.named husable.port scheme user password host
    rw [← hscheme] at hread
    refine ⟨{ user, password, host, port }, ?_, hhost, hport⟩
    have hfull : p.host.isEmpty = false := by simpa using husable.named
    rw [authority?_eq hread, hscheme, h.spanHost, if_neg (by simp [hfull]), hostOf,
      if_neg (by decide), hhost]
    exact hbehind

/-- **A server that is not usable is not read.** -/
theorem In.authority?_of_not_usable [Idna] (h : p.In cs rest) (husable : ¬ p.Usable)
    (hscheme : schemeKind scheme = .common) :
    ∃ e ∈ serverFaults, authority? scheme cs = .error e := by
  obtain ⟨-, hread⟩ | ⟨user, password, hread⟩ := h.userInfo
  · refine ⟨.emptyHost, by decide, ?_⟩
    rw [authority?, hscheme, hread]
    rfl
  · rw [← hscheme] at hread
    rw [authority?_eq hread, hscheme, h.spanHost]
    by_cases hnamed : p.host = []
    · exact ⟨.emptyHost, by decide, by simp [hnamed]⟩
    · have hfull : p.host.isEmpty = false := by simpa using hnamed
      rw [if_neg (by simp [hfull]), hostOf, if_neg (by decide)]
      cases hhost : Host.ofChars p.host with
      | error e => exact ⟨e, Host.error_mem_serverFaults hhost, rfl⟩
      | ok host =>
        have hfits : ¬ IsPort p.port := fun hfits => husable ⟨hnamed, ⟨host, hhost⟩, hfits⟩
        exact ⟨.invalidPort, by decide,
          h.behindHost_of_not_fits hnamed hfits scheme user password host⟩

end Server

/-! ## Web addresses -/

def webSchemes : List String := ["http", "https"]

/-- What counts of a web address behind its first two slashes. -/
def counted (rest : String) : List Char :=
  ((trimEndBy (·.toNat ≤ 0x20) rest.toList).filter fun c => !isDropped c).dropWhile
    SchemeKind.common.isSlash

theorem schemeKind_web (h : scheme ∈ webSchemes) : schemeKind scheme = .common := by
  simp only [webSchemes, List.mem_cons, List.not_mem_nil, or_false] at h
  obtain rfl | rfl := h <;> decide

theorem relevant_web (h : scheme ∈ webSchemes) (rest : String) :
    relevant (scheme ++ "://" ++ rest) = (scheme ++ "://").toList ++
      (trimEndBy (·.toNat ≤ 0x20) rest.toList).filter fun c => !isDropped c := by
  have hslash : ∀ front, trimEndBy (·.toNat ≤ 0x20) (front ++ '/' :: rest.toList) =
      front ++ '/' :: trimEndBy (·.toNat ≤ 0x20) rest.toList :=
    fun front => trimEndBy_stop (by decide) front rest.toList
  simp only [webSchemes, List.mem_cons, List.not_mem_nil, or_false] at h
  obtain rfl | rfl := h
  · have htext : ("http" ++ "://" ++ rest).toList =
        ['h', 't', 't', 'p', ':', '/'] ++ '/' :: rest.toList := by simp
    rw [relevant, htext, trimBy, trimStartBy, dropWhile_of_head (by simp), hslash,
      List.filter_append, List.filter_cons_of_pos (by decide)]
    rfl
  · have htext : ("https" ++ "://" ++ rest).toList =
        ['h', 't', 't', 'p', 's', ':', '/'] ++ '/' :: rest.toList := by simp
    rw [relevant, htext, trimBy, trimStartBy, dropWhile_of_head (by simp), hslash,
      List.filter_append, List.filter_cons_of_pos (by decide)]
    rfl

theorem scheme?_web (h : scheme ∈ webSchemes) (cs : List Char) :
    scheme? ((scheme ++ "://").toList ++ cs) = some (scheme, '/' :: '/' :: cs) := by
  simp only [webSchemes, List.mem_cons, List.not_mem_nil, or_false] at h
  obtain rfl | rfl := h <;> simp +decide [scheme?]

/-- A web address is read from what counts behind its slashes. -/
theorem ofText_web [Idna] (h : scheme ∈ webSchemes) (rest : String) :
    ofText (scheme ++ "://" ++ rest) = afterSlashes scheme (counted rest) := by
  unfold ofText parse
  simp only [relevant_web h, scheme?_web h, schemeKind_web h]
  rfl

/-! ## Plain names -/

/-- A name of ASCII, with no label that encodes others. -/
structure PlainName (name : List Char) : Prop where
  ascii : ∀ c ∈ name, c.toNat < 0x80
  decoded : ∀ label ∈ splitAll '.' (name.map Char.toLower), ¬ "xn--".toList <+: label

/-- What is known of every reading of names: a plain name stands for itself in lower case, unless it
holds a character that no domain holds. -/
class Idna.Lawful [Idna] : Prop where
  ascii?_plain : ∀ name, PlainName name → Idna.ascii? (Utf8.encode (String.ofList name)) =
    if name.any Host.isForbidden then none else some (name.map Char.toLower)

/-- What a domain makes of a character of ASCII. -/
structure PlainChar (c : Char) : Prop where
  ignored : Host.isIgnored c = false
  width : Host.foldWidth c = c
  lower : lowerChar c = c.toLower
  ascii : c.toLower.toNat < 0x80
  allowed : (Host.isForbidden c.toLower || Host.isUnassignable c.toLower) = Host.isForbidden c

theorem plainChar_of_ascii {c : Char} (h : c.toNat < 0x80) : PlainChar c := by
  have hall : ∀ n : Fin 128, Host.isIgnored (Char.ofNat n) = false ∧
      Host.foldWidth (Char.ofNat n) = Char.ofNat n ∧
      lowerChar (Char.ofNat n) = (Char.ofNat n).toLower ∧ (Char.ofNat n).toLower.toNat < 0x80 ∧
      (Host.isForbidden (Char.ofNat n).toLower || Host.isUnassignable (Char.ofNat n).toLower) =
        Host.isForbidden (Char.ofNat n) := by
    decide +kernel
  have hc := hall ⟨c.toNat, h⟩
  simp only [Char.ofNat_toNat] at hc
  obtain ⟨hignored, hwidth, hlower, hascii, hallowed⟩ := hc
  exact ⟨hignored, hwidth, hlower, hascii, hallowed⟩

theorem lowerFrom_ascii (before : List Char) (h : ∀ c ∈ cs, c.toNat < 0x80) :
    lowerFrom before cs = cs.map Char.toLower := by
  induction cs generalizing before with
  | nil => rfl
  | cons c cs ih =>
    obtain ⟨hc, hcs⟩ := List.forall_mem_cons.1 h
    have hsigma : c ≠ 'Σ' := by
      rintro rfl
      exact absurd hc (by decide)
    have hdotted : c ≠ 'İ' := by
      rintro rfl
      exact absurd hc (by decide)
    rw [lowerFrom, if_neg hsigma, if_neg hdotted, (plainChar_of_ascii hc).lower, ih _ hcs,
      List.singleton_append, List.map_cons]

/-- A label of ASCII that is not encoded is written as it is. -/
theorem asciiLabel?_plain {label : List Char} (hascii : ∀ c ∈ label, c.toNat < 128)
    (hplain : ¬ "xn--".toList <+: label) : Host.asciiLabel? label = some label := by
  have hall : label.all (·.toNat < 128) = true := by simpa using hascii
  unfold Host.asciiLabel?
  rw [if_pos hall]
  split
  · next rest => exact absurd ⟨rest, rfl⟩ hplain
  · rfl

theorem mapM_asciiLabel? {labels : List (List Char)}
    (h : ∀ label ∈ labels, Host.asciiLabel? label = some label) :
    labels.mapM Host.asciiLabel? = some labels := by
  induction labels with
  | nil => rfl
  | cons label labels ih =>
    rw [List.mapM_cons, h label List.mem_cons_self, ih fun l hl => h l (.tail label hl)]
    rfl

/-- The pieces hold nothing that was not there. -/
theorem mem_of_mem_splitAll {sep : Char} {piece : List Char} (h : piece ∈ splitAll sep cs)
    {c : Char} (hc : c ∈ piece) : c ∈ cs := by
  obtain ⟨first, pieces, hs⟩ := List.exists_cons_of_ne_nil (splitAll_ne_nil sep cs)
  rw [hs] at h
  rw [← intercalate_splitAll sep cs, hs, intercalate_eq_flatMap, List.mem_append, List.mem_flatMap]
  obtain rfl | hmem := List.mem_cons.1 h
  · exact .inl hc
  · exact .inr ⟨piece, hmem, .tail sep hc⟩

variable {name : List Char}

/-- **The reading that the dashboard runs with is exact for plain names.** -/
theorem PlainName.asciiDomain? (h : PlainName name) :
    Host.asciiDomain? (Utf8.encode (String.ofList name)) =
      if name.any Host.isForbidden then none else some (name.map Char.toLower) := by
  have hchar : ∀ c ∈ name, PlainChar c := fun c hc => plainChar_of_ascii (h.ascii c hc)
  have hfilter : name.filter (fun c => !Host.isIgnored c) = name :=
    List.filter_eq_self.2 fun c hc => by rw [(hchar c hc).ignored]; rfl
  have hmap : name.map Host.foldWidth = name := by
    rw [List.map_congr_left fun c hc => (hchar c hc).width, List.map_id']
  have hlower : (lowerCase (String.ofList name)).toList = name.map Char.toLower := by
    rw [lowerCase, String.toList_ofList, String.toList_ofList, lowerFrom_ascii [] h.ascii]
  have hallowed : (name.map Char.toLower).any
      (fun c => Host.isForbidden c || Host.isUnassignable c) = name.any Host.isForbidden := by
    rw [List.any_map, Bool.eq_iff_iff, List.any_eq_true, List.any_eq_true]
    refine exists_congr fun c => and_congr_right fun hc => ?_
    rw [← (hchar c hc).allowed]
    rfl
  have hascii : ∀ c ∈ name.map Char.toLower, c.toNat < 0x80 :=
    List.forall_mem_map.2 fun c hc => (hchar c hc).ascii
  have hlabels : (splitAll '.' (name.map Char.toLower)).mapM Host.asciiLabel? =
      some (splitAll '.' (name.map Char.toLower)) :=
    mapM_asciiLabel? fun label hlabel => asciiLabel?_plain
      (fun c hc => hascii c (mem_of_mem_splitAll hlabel hc)) (h.decoded label hlabel)
  unfold Host.asciiDomain?
  simp only [Utf8.decode?_encode, Option.bind_eq_bind, Option.bind_some, String.toList_ofList,
    hfilter, hmap, hlower, hallowed, hlabels, intercalate_splitAll]
  split_ifs <;> rfl

/-- A plain name without percent signs is read as it is written. -/
theorem PlainName.ascii?_decode [Idna] [Idna.Lawful] (h : PlainName name) (hpercent : '%' ∉ name) :
    Idna.ascii? (Percent.decode (Utf8.encode (String.ofList name))) =
      if name.any Host.isForbidden then none else some (name.map Char.toLower) := by
  have hencode : Percent.encode (· == '%') name = name := by
    refine Percent.encode_eq_self fun c hc => ⟨h.ascii c hc, ?_⟩
    rw [beq_eq_false_iff_ne]
    rintro rfl
    exact hpercent hc
  have hdecode : Percent.decode (Utf8.encode (String.ofList name)) =
      Utf8.encode (String.ofList name) := by
    conv_lhs => rw [← hencode]
    exact Percent.decode_encode rfl name
  rw [hdecode, Idna.Lawful.ascii?_plain name h]

/-- Such a name is no host if it holds a character that no domain holds. -/
theorem PlainName.ofChars_of_forbidden [Idna] [Idna.Lawful] (h : PlainName name)
    (hpercent : '%' ∉ name) (hbracket : name.head? ≠ some '[')
    (hforbidden : name.any Host.isForbidden = true) :
    Host.ofChars name = .error .invalidDomain := by
  rw [Host.ofChars, if_neg hbracket, h.ascii?_decode hpercent, if_pos hforbidden]

instance : Idna.Lawful := ⟨fun _ => PlainName.asciiDomain?⟩

/-! ## Host names -/

/-- A character that a host name is made of. -/
def isNameChar (c : Char) : Bool := c.isLower || c.isDigit || c == '-' || c == '.'

/-- A host name as it is registered: labels of letters, digits and hyphens between full stops, the
last of which starts with a letter, and none of which is encoded. -/
structure HostName (name : List Char) : Prop where
  chars : ∀ c ∈ name, isNameChar c = true
  last : ∃ front letter label, name = front ++ letter :: label ∧ letter.isLower = true ∧
    '.' ∉ label ∧ (front = [] ∨ front.getLast? = some '.')
  decoded : ∀ label ∈ splitAll '.' name, ¬ "xn--".toList <+: label

/-- What a character of a host name is not. -/
structure Ordinary (c : Char) : Prop where
  ascii : c.toNat < 0x80
  shown : decide (c.toNat ≤ 0x20) = false
  dropped : isDropped c = false
  inside : endsServer c = false
  marks : c ≠ '%' ∧ c ≠ ':' ∧ c ≠ '@' ∧ c ≠ '['
  allowed : Host.isForbidden c = false
  lower : c.toLower = c

theorem lt_of_isLower {c : Char} (h : c.isLower = true) : c.toNat < 0x80 :=
  lt_of_isAlphanum ((Bool.or_eq_true _ _).mpr (.inl ((Bool.or_eq_true _ _).mpr (.inr h))))

theorem ordinary_of_isNameChar {c : Char} (h : isNameChar c = true) : Ordinary c := by
  have hascii : c.toNat < 0x80 := by
    simp only [isNameChar, Bool.or_eq_true, beq_iff_eq] at h
    obtain ((h | h) | rfl) | rfl := h
    · exact lt_of_isLower h
    · exact lt_of_isAlphanum (by simp [Char.isAlphanum, h])
    · decide
    · decide
  have hall : ∀ n : Fin 128, isNameChar (Char.ofNat n) = true →
      decide ((Char.ofNat n).toNat ≤ 0x20) = false ∧ isDropped (Char.ofNat n) = false ∧
        endsServer (Char.ofNat n) = false ∧
        (Char.ofNat n ≠ '%' ∧ Char.ofNat n ≠ ':' ∧ Char.ofNat n ≠ '@' ∧ Char.ofNat n ≠ '[') ∧
        Host.isForbidden (Char.ofNat n) = false ∧ (Char.ofNat n).toLower = Char.ofNat n := by
    decide +kernel
  have hc := hall ⟨c.toNat, hascii⟩
  simp only [Char.ofNat_toNat] at hc
  obtain ⟨hshown, hdropped, hinside, hmarks, hallowed, hlower⟩ := hc h
  exact ⟨hascii, hshown, hdropped, hinside, hmarks, hallowed, hlower⟩

theorem HostName.ordinary (h : HostName name) : ∀ c ∈ name, Ordinary c :=
  fun c hc => ordinary_of_isNameChar (h.chars c hc)

theorem HostName.ne_nil (h : HostName name) : name ≠ [] := by
  obtain ⟨front, letter, label, rfl, -⟩ := h.last
  simp

theorem HostName.map_toLower (h : HostName name) : name.map Char.toLower = name := by
  rw [List.map_congr_left fun c hc => (h.ordinary c hc).lower, List.map_id']

theorem HostName.plain (h : HostName name) : PlainName name where
  ascii c hc := (h.ordinary c hc).ascii
  decoded := by
    rw [h.map_toLower]
    exact h.decoded

theorem HostName.allowed (h : HostName name) : name.any Host.isForbidden = false :=
  List.any_eq_false.2 fun c hc => by rw [(h.ordinary c hc).allowed]; decide

theorem not_digit_of_isLower {c : Char} (h : c.isLower = true) :
    c ≠ '0' ∧ c.isDigit = false ∧ Host.digit? 10 c = none := by
  have hascii : c.toNat < 0x80 := lt_of_isLower h
  have hall : ∀ n : Fin 128, (Char.ofNat n).isLower = true → Char.ofNat n ≠ '0' ∧
      (Char.ofNat n).isDigit = false ∧ Host.digit? 10 (Char.ofNat n) = none := by
    decide +kernel
  have hc := hall ⟨c.toNat, hascii⟩
  simp only [Char.ofNat_toNat] at hc
  exact hc h

/-- A label that starts with a letter is no number of an address. -/
theorem ipv4Number?_letter {letter : Char} (h : letter.isLower = true) (label : List Char) :
    Host.ipv4Number? (letter :: label) = none := by
  obtain ⟨hzero, -, hdigit⟩ := not_digit_of_isLower h
  unfold Host.ipv4Number?
  split
  all_goals simp_all [Host.natOf?]

theorem HostName.endsInNumber (h : HostName name) : Host.endsInNumber name = false := by
  obtain ⟨front, letter, label, rfl, hletter, hlabel, hfront⟩ := h.last
  have hdot : '.' ∉ letter :: label := by
    rw [List.mem_cons, not_or]
    refine ⟨?_, hlabel⟩
    rintro rfl
    exact absurd hletter (by decide)
  have hlast : ∃ labels, splitAll '.' (front ++ letter :: label) = labels ++ [letter :: label] := by
    obtain rfl | hend := hfront
    · exact ⟨[], splitAll_of_not_mem hdot⟩
    · obtain ⟨front', rfl⟩ := List.getLast?_eq_some_iff.1 hend
      refine ⟨splitAll '.' front', ?_⟩
      rw [List.append_assoc, List.singleton_append, splitAll_append_sep, splitAll_of_not_mem hdot]
  obtain ⟨labels, hlast⟩ := hlast
  have hdigit := (not_digit_of_isLower hletter).2.1
  unfold Host.endsInNumber
  rw [hlast, List.reverse_append, List.reverse_singleton, List.singleton_append]
  simp [hdigit, ipv4Number?_letter hletter]

/-- **A host name is a host**, just as it is written. -/
theorem HostName.ofChars [Idna] [Idna.Lawful] (h : HostName name) :
    Host.ofChars name = .ok (.domain (String.ofList name)) := by
  have hbracket : name.head? ≠ some '[' := by
    intro hhead
    exact (h.ordinary '[' (List.mem_of_mem_head? hhead)).marks.2.2.2 rfl
  have hpercent : '%' ∉ name := fun hmem => (h.ordinary '%' hmem).marks.1 rfl
  rw [Host.ofChars, if_neg hbracket, h.plain.ascii?_decode hpercent, h.allowed,
    if_neg (by decide), h.map_toLower]
  obtain ⟨c, rest, hname⟩ := List.exists_cons_of_ne_nil h.ne_nil
  have hnumber := h.endsInNumber
  rw [hname] at hnumber ⊢
  simp only [hnumber, Bool.false_eq_true, if_false]

/-! ## Addresses with host names -/

theorem isOpenFrom_ordinary (h : ∀ c ∈ cs, Ordinary c) : isOpenFrom false cs = false := by
  induction cs with
  | nil => rfl
  | cons c cs ih =>
    have hc : (c == '[') = false := by simpa using (h c List.mem_cons_self).marks.2.2.2
    simp only [isOpenFrom, hc, Bool.false_eq_true, if_false, ite_self]
    exact ih fun d hd => h d (.tail c hd)

/-- Nothing in a host name or a port is left out, or ends the server. -/
theorem HostName.server_chars (h : HostName name) {port : List Char} (hport : IsPort port) :
    ∀ c ∈ name ++ port, decide (c.toNat ≤ 0x20) = false ∧ isDropped c = false ∧
      endsServer c = false ∧ c ≠ '@' := by
  have hordinary : ∀ c, Ordinary c → decide (c.toNat ≤ 0x20) = false ∧ isDropped c = false ∧
      endsServer c = false ∧ c ≠ '@' :=
    fun c hc => ⟨hc.shown, hc.dropped, hc.inside, hc.marks.2.2.1⟩
  intro c hc
  obtain hname | hc := List.mem_append.1 hc
  · exact hordinary c (h.ordinary c hname)
  · obtain rfl | ⟨digits, rfl, hdigits, -⟩ := hport
    · exact absurd hc List.not_mem_nil
    · obtain rfl | hdigit := List.mem_cons.1 hc
      · decide
      · exact hordinary c (ordinary_of_isNameChar (by simp [isNameChar, hdigits c hdigit]))

/-- Of an address that starts with a host name all counts, up to the path. -/
theorem HostName.counted (h : HostName name) {port : List Char} (hport : IsPort port)
    {path : String} (hpath : path = "" ∨ path.startsWith "/" = true) :
    ∃ tail, Url.counted (String.ofList (name ++ port) ++ path) = name ++ port ++ tail ∧
      ∀ c ∈ tail.head?, endsServer c = true := by
  have hchars := h.server_chars hport
  have hkept : (name ++ port).filter (fun c => !isDropped c) = name ++ port :=
    List.filter_eq_self.2 fun c hc => by rw [(hchars c hc).2.1]; rfl
  have hslash : ∀ tail, ∀ c ∈ (name ++ port ++ tail).head?,
      SchemeKind.common.isSlash c = false := by
    obtain ⟨first, behind, rfl⟩ := List.exists_cons_of_ne_nil h.ne_nil
    rintro tail c ⟨⟩
    have hfirst := (hchars first (by simp)).2.2.1
    rw [endsServer, Bool.or_eq_false_iff] at hfirst
    exact hfirst.1
  unfold Url.counted
  obtain rfl | hpath := hpath
  · refine ⟨[], ?_, by simp⟩
    have htext : (String.ofList (name ++ port) ++ "").toList = name ++ port := by simp
    have hhead := hslash []
    rw [List.append_nil] at hhead ⊢
    rw [htext, trimEndBy_eq_self fun c hc => (hchars c hc).1, hkept, dropWhile_of_head hhead]
  · obtain ⟨more, hmore⟩ := String.startsWith_string_iff.1 hpath
    have htext : (String.ofList (name ++ port) ++ path).toList = name ++ port ++ '/' :: more := by
      rw [String.toList_append, String.toList_ofList, ← hmore]
      rfl
    refine ⟨'/' :: (trimEndBy (·.toNat ≤ 0x20) more).filter fun c => !isDropped c, ?_, ?_⟩
    · rw [htext, trimEndBy_stop (by decide), List.filter_append, hkept,
        List.filter_cons_of_pos (by decide), dropWhile_of_head (hslash _)]
    · rintro c ⟨⟩
      rfl

/-- The server of such an address. -/
theorem HostName.in_counted (h : HostName name) {port : List Char} (hport : IsPort port)
    {path : String} (hpath : path = "" ∨ path.startsWith "/" = true) :
    ∃ tail,
      Server.In ⟨[], name, port⟩ (Url.counted (String.ofList (name ++ port) ++ path)) tail := by
  have hchars := h.server_chars hport
  obtain ⟨tail, hcounted, htail⟩ := h.counted hport hpath
  refine ⟨tail, hcounted, .inl rfl, fun hat => (hchars '@' hat).2.2.2 rfl,
    fun c hc => (hchars c hc).2.2.1, htail, ?colon, ?port⟩
  case colon =>
    intro front behind heq
    exact absurd rfl (h.ordinary ':' (by rw [show name = _ from heq]; simp)).marks.2.1
  case port =>
    obtain rfl | ⟨digits, rfl, -⟩ := hport
    · exact .inl rfl
    · exact .inr ⟨⟨digits, rfl⟩, isOpenFrom_ordinary h.ordinary⟩

theorem HostName.usable [Idna] [Idna.Lawful] (h : HostName name) {port : List Char}
    (hport : IsPort port) : Server.Usable ⟨[], name, port⟩ :=
  ⟨h.ne_nil, ⟨_, h.ofChars⟩, hport⟩

end TabBoard.Url
