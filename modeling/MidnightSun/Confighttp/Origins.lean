import MidnightSun.Confighttp.Csrf
import MidnightSun.Util.Decimal

/-!
# Allowed origins (src/confighttp.cpp, `is_allowed_origin`, and src/config.cpp, `apply_config`)

`is_allowed_origin` looks at the text of a URL; whose page it is, its authority says.
-/

namespace MidnightSun.Confighttp

open Util

/-! ### The configured list -/

/-- A byte of a host name. -/
def hostByte (c : UInt8) : Bool := c ∉ [35, 47, 58, 63, 64, 91, 93]

/-- A byte between the brackets of an IPv6 address. -/
def addressByte (c : UInt8) : Bool := c ∉ [35, 47, 63, 64, 91, 93]

/-- `https://host` or `https://host:port`. -/
structure Origin where
  host : Str
  port : Option Str
  host_ok : (host ≠ [] ∧ ∀ c ∈ host, hostByte c = true) ∨
    ∃ address, host = 91 :: address ++ [93] ∧ ∀ c ∈ address, addressByte c = true
  port_ok : ∀ p, port = some p → p ≠ [] ∧ ∀ c ∈ p, 48 ≤ c ∧ c ≤ 57

def Origin.authority (o : Origin) : Str :=
  match o.port with
  | none => o.host
  | some p => o.host ++ 58 :: p

def Origin.text (o : Origin) : Str := str "https://" ++ o.authority

/-- The list that `apply_config` makes of the entries of the user and of the port. -/
def csrfAllowedOrigins (entries : List Str) (port : UInt16) : List Str :=
  [str "https://localhost", str "https://127.0.0.1", str "https://[::1]"] ++
  entries.filter (fun origin => 8 < origin.length ∧ (str "https://").isPrefixOf origin) ++
  [str "https://localhost:" ++ decimal (port + 1).toNat, str "https://127.0.0.1:" ++ decimal (port + 1).toNat,
    str "https://[::1]:" ++ decimal (port + 1).toNat]

/-! ### The authority of a URL -/

/-- Behind `https://`, up to the path, the query or the fragment. -/
def authority (url : Str) : Str := (url.drop 8).takeWhile fun c => c ≠ 47 ∧ c ≠ 63 ∧ c ≠ 35

/-- The authority without the user information. -/
def behindUser (authority : Str) : Str := authority.rtakeWhile fun c => c ≠ 64

/-- The host and the port.  An address in brackets has colons of its own. -/
def splitPort (t : Str) : Str × Option Str :=
  let host := if t.head? = some 91 then t.takeWhile (· ≠ 93) ++ [93] else t.takeWhile (· ≠ 58)
  if (host ++ [58]).isPrefixOf t then (host, some (t.drop (host.length + 1))) else (t, none)

def hostOf (url : Str) : Str := (splitPort (behindUser (authority url))).1

def portOf (url : Str) : Option Str := (splitPort (behindUser (authority url))).2

/-- The host of the URL is that of one of the origins, and so is the port, if that origin has one. -/
def SameHost (origins : List Origin) (url : Str) : Prop :=
  ∃ o ∈ origins, hostOf url = o.host ∧ ∀ p, o.port = some p → portOf url = some p

/-- The text is the authority of the origin, or adds a port to it. -/
def Origin.Names (o : Origin) (t : Str) : Prop := t = o.authority ∨ o.port = none ∧ ∃ p, t = o.host ++ 58 :: p

/-- The URL begins with the origin, as `is_allowed_origin` asks for it. -/
def Origin.Begins (o : Origin) (url rest : Str) : Prop :=
  url = o.text ++ rest ∧ (rest = [] ∨ rest.head? = some 58 ∨ rest.head? = some 47)

/-- Without user information, an origin with which the URL begins has no port, or no colon follows it; with user
information, an origin is named behind it. -/
def HostGuard (origins : List Origin) (url : Str) : Prop :=
  if 64 ∈ authority url then ∃ o ∈ origins, o.Names (behindUser (authority url))
  else ∃ o ∈ origins, ∃ rest, o.Begins url rest ∧ (o.port = none ∨ rest.head? ≠ some 58)

/-! ### Hosts and ports -/

lemma splitPort_eq_none {t host : Str} (h : splitPort t = (host, none)) : t = host := by
  unfold splitPort at h
  generalize (if t.head? = some 91 then t.takeWhile (· ≠ 93) ++ [93] else t.takeWhile (· ≠ 58)) = name at h
  dsimp only at h
  split_ifs at h
  · cases (Prod.mk.inj h).2
  · exact (Prod.mk.inj h).1

lemma splitPort_eq_some {t host p : Str} (h : splitPort t = (host, some p)) : t = host ++ 58 :: p := by
  unfold splitPort at h
  generalize (if t.head? = some 91 then t.takeWhile (· ≠ 93) ++ [93] else t.takeWhile (· ≠ 58)) = name at h
  dsimp only at h
  split_ifs at h with hprefix
  · obtain ⟨hhost, hport⟩ := Prod.mk.inj h
    obtain ⟨rest, rfl⟩ := List.isPrefixOf_iff_prefix.mp hprefix
    subst hhost
    have hp : rest = p := by simpa using hport
    simp [hp]
  · cases (Prod.mk.inj h).2

/-- The host of an origin is found again. -/
lemma name_of_origin (o : Origin) {rest : Str} (hrest : rest = [] ∨ rest.head? = some 58) :
    (if (o.host ++ rest).head? = some 91 then (o.host ++ rest).takeWhile (· ≠ 93) ++ [93]
      else (o.host ++ rest).takeWhile (· ≠ 58)) = o.host := by
  rcases o.host_ok with ⟨hne, hbytes⟩ | ⟨address, haddress, hbytes⟩
  · have hhead : (o.host ++ rest).head? ≠ some 91 := by
      intro h
      rw [List.head?_append_of_ne_nil _ hne] at h
      have := hbytes 91 (List.mem_of_head? h)
      simp [hostByte] at this
    have hcolon : ∀ c ∈ o.host, decide (c ≠ 58) = true := by
      intro c hc
      have := hbytes c hc
      simp only [hostByte, List.mem_cons, not_or, decide_eq_true_eq] at this
      exact decide_eq_true this.2.2.1
    rw [if_neg hhead, List.takeWhile_append_of_pos hcolon]
    rcases hrest with rfl | hrest
    · simp
    · obtain ⟨p, rfl⟩ : ∃ p, rest = 58 :: p := ⟨_, List.eq_cons_of_mem_head? hrest⟩
      simp
  · have hclose : ∀ c ∈ 91 :: address, decide (c ≠ 93) = true := by
      intro c hc
      rcases List.mem_cons.mp hc with rfl | hc
      · decide
      · have := hbytes c hc
        simp only [addressByte, List.mem_cons, not_or, decide_eq_true_eq] at this
        exact decide_eq_true this.2.2.2.2.2.1
    rw [if_pos (by simp [haddress]), haddress, List.append_assoc, List.takeWhile_append_of_pos hclose]
    simp

lemma splitPort_host (o : Origin) : splitPort o.host = (o.host, none) := by
  have hname := name_of_origin o (Or.inl (rfl : ([] : Str) = []))
  rw [List.append_nil] at hname
  unfold splitPort
  rw [hname]
  have hprefix : ¬ (o.host ++ [58]).isPrefixOf o.host = true := by
    intro h
    have := (List.isPrefixOf_iff_prefix.mp h).length_le
    simp at this
  exact if_neg hprefix

lemma splitPort_host_port (o : Origin) (p : Str) : splitPort (o.host ++ 58 :: p) = (o.host, some p) := by
  have hrest : (58 :: p : Str) = [] ∨ (58 :: p : Str).head? = some 58 := Or.inr rfl
  have hname := name_of_origin o hrest
  unfold splitPort
  rw [hname]
  have hprefix : (o.host ++ [58]).isPrefixOf (o.host ++ 58 :: p) = true :=
    List.isPrefixOf_iff_prefix.mpr ⟨p, by simp⟩
  rw [if_pos hprefix]
  simp

lemma splitPort_authority (o : Origin) : splitPort o.authority = (o.host, o.port) := by
  unfold Origin.authority
  cases hport : o.port with
  | none => exact splitPort_host o
  | some p => exact splitPort_host_port o p

/-- What the parsed host and port have to be, in terms of the text. -/
lemma Origin.names_iff (o : Origin) (t : Str) :
    o.Names t ↔ (splitPort t).1 = o.host ∧ ∀ p, o.port = some p → (splitPort t).2 = some p := by
  constructor
  · rintro (rfl | ⟨hport, p, rfl⟩)
    · rw [splitPort_authority]
      exact ⟨rfl, fun p hp => hp⟩
    · rw [splitPort_host_port]
      refine ⟨rfl, fun q hq => ?_⟩
      rw [hport] at hq
      cases hq
  · rintro ⟨hhost, hport⟩
    rcases hsplit : splitPort t with ⟨host, port⟩
    rw [hsplit] at hhost hport
    obtain rfl : host = o.host := hhost
    cases hp : o.port with
    | some p =>
      obtain rfl : port = some p := hport p hp
      left
      simp only [Origin.authority, hp]
      exact splitPort_eq_some hsplit
    | none =>
      cases port with
      | none => exact Or.inl (by simp only [Origin.authority, hp]; exact splitPort_eq_none hsplit)
      | some p => exact Or.inr ⟨hp, p, splitPort_eq_some hsplit⟩

lemma sameHost_iff (origins : List Origin) (url : Str) :
    SameHost origins url ↔ ∃ o ∈ origins, o.Names (behindUser (authority url)) := by
  simp only [SameHost, Origin.names_iff, hostOf, portOf]

/-! ### The authority of a URL that is accepted -/

lemma isAllowedOrigin_iff (origins : List Origin) (url : Str) :
    isAllowedOrigin (origins.map Origin.text) url = true ↔ ∃ o ∈ origins, ∃ rest, o.Begins url rest := by
  have hone : ∀ o : Origin, (o.text.isPrefixOf url && (url.length == o.text.length || url[o.text.length]? == some 58 ||
      url[o.text.length]? == some 47)) = true ↔ ∃ rest, o.Begins url rest := by
    intro o
    simp only [Bool.and_eq_true, Bool.or_eq_true, beq_iff_eq, List.isPrefixOf_iff_prefix, Origin.Begins]
    constructor
    · rintro ⟨⟨rest, rfl⟩, hnext⟩
      refine ⟨rest, rfl, ?_⟩
      simpa [List.head?_eq_getElem?, List.getElem?_append_right (Nat.le_refl o.text.length), or_assoc] using hnext
    · rintro ⟨rest, rfl, hnext⟩
      refine ⟨⟨rest, rfl⟩, ?_⟩
      simpa [List.head?_eq_getElem?, List.getElem?_append_right (Nat.le_refl o.text.length), or_assoc] using hnext
  simp only [isAllowedOrigin, List.any_map, List.any_eq_true, Function.comp, hone]

lemma authority_bytes (o : Origin) : ∀ c ∈ o.authority, decide (c ≠ 47 ∧ c ≠ 63 ∧ c ≠ 35) = true := by
  have hhost : ∀ c ∈ o.host, c ≠ 47 ∧ c ≠ 63 ∧ c ≠ 35 := by
    intro c hc
    rcases o.host_ok with ⟨-, hbytes⟩ | ⟨address, haddress, hbytes⟩
    · have := hbytes c hc
      simp only [hostByte, List.mem_cons, not_or, decide_eq_true_eq] at this
      exact ⟨this.2.1, this.2.2.2.1, this.1⟩
    · rw [haddress] at hc
      simp only [List.cons_append, List.mem_cons, List.mem_append, List.not_mem_nil, or_false] at hc
      rcases hc with rfl | hc | rfl
      · decide
      · have := hbytes c hc
        simp only [addressByte, List.mem_cons, not_or, decide_eq_true_eq] at this
        exact ⟨this.2.1, this.2.2.1, this.1⟩
      · decide
  intro c hc
  refine decide_eq_true ?_
  cases hport : o.port with
  | none =>
    simp only [Origin.authority, hport] at hc
    exact hhost c hc
  | some p =>
    simp only [Origin.authority, hport, List.mem_append, List.mem_cons] at hc
    rcases hc with hc | rfl | hc
    · exact hhost c hc
    · decide
    · have hdigit := (o.port_ok p hport).2 c hc
      refine ⟨?_, ?_, ?_⟩ <;> rintro rfl <;> revert hdigit <;> decide

lemma authority_of_begins {o : Origin} {url rest : Str} (h : o.Begins url rest) :
    authority url = o.authority ++ rest.takeWhile fun c => c ≠ 47 ∧ c ≠ 63 ∧ c ≠ 35 := by
  have hdrop : url.drop 8 = o.authority ++ rest := by
    rw [h.1, Origin.text, List.append_assoc]
    rfl
  unfold authority
  rw [hdrop]
  exact List.takeWhile_append_of_pos (authority_bytes o)

lemma behindUser_of_not_mem {t : Str} (h : 64 ∉ t) : behindUser t = t := by
  unfold behindUser
  rw [List.rtakeWhile_eq_self_iff]
  intro c hc
  refine decide_eq_true ?_
  rintro rfl
  exact h hc

lemma authority_of_begins_eq {o : Origin} {url rest : Str} (h : o.Begins url rest) (hcolon : rest.head? ≠ some 58) :
    authority url = o.authority := by
  rw [authority_of_begins h]
  rcases h.2 with rfl | hhead | hhead
  · simp
  · exact absurd hhead hcolon
  · obtain ⟨path, rfl⟩ : ∃ path, rest = 47 :: path := ⟨_, List.eq_cons_of_mem_head? hhead⟩
    simp

lemma authority_of_begins_colon {o : Origin} {url more : Str} (h : o.Begins url (58 :: more)) :
    ∃ p, authority url = o.authority ++ 58 :: p := by
  refine ⟨more.takeWhile fun c => c ≠ 47 ∧ c ≠ 63 ∧ c ≠ 35, ?_⟩
  rw [authority_of_begins h, List.takeWhile_cons_of_pos (by decide)]

lemma names_of_begins {o : Origin} {url rest : Str} (h : o.Begins url rest)
    (hrest : o.port = none ∨ rest.head? ≠ some 58) : o.Names (authority url) := by
  by_cases hcolon : rest.head? = some 58
  · obtain ⟨more, rfl⟩ : ∃ more, rest = 58 :: more := ⟨_, List.eq_cons_of_mem_head? hcolon⟩
    have hport : o.port = none := hrest.resolve_right (by simp)
    obtain ⟨p, hp⟩ := authority_of_begins_colon h
    exact Or.inr ⟨hport, p, by simpa [Origin.authority, hport] using hp⟩
  · exact Or.inl (authority_of_begins_eq h hcolon)

lemma port_of_names {o o' : Origin} {p more : Str} (hport : o'.port = some p)
    (h : o.Names (o'.authority ++ 58 :: more)) :
    o.port = none ∧ ∃ q, o'.authority ++ 58 :: more = o.host ++ 58 :: q := by
  rcases h with h | h
  · have hsplit : splitPort (o'.authority ++ 58 :: more) = (o'.host, some (p ++ 58 :: more)) := by
      rw [← splitPort_host_port o']
      simp [Origin.authority, hport]
    rw [h, splitPort_authority] at hsplit
    have hdigits := (o.port_ok _ (Prod.mk.inj hsplit).2).2 58 (by simp)
    exact absurd hdigits (by decide)
  · exact h

lemma begins_of_authority {o o' : Origin} {url rest q : Str} (hbegins : o'.Begins url rest) (hport : o.port = none)
    (hq : authority url = o.host ++ 58 :: q) : ∃ more, o.Begins url (58 :: more) := by
  refine ⟨q ++ (url.drop 8).dropWhile fun c => c ≠ 47 ∧ c ≠ 63 ∧ c ≠ 35, ?_, Or.inr (Or.inl rfl)⟩
  have hscheme : url = str "https://" ++ url.drop 8 := by
    rw [hbegins.1, Origin.text, List.append_assoc]
    rfl
  have hsplit : authority url ++ (url.drop 8).dropWhile (fun c => c ≠ 47 ∧ c ≠ 63 ∧ c ≠ 35) = url.drop 8 :=
    List.takeWhile_append_dropWhile
  rw [hq] at hsplit
  calc url = str "https://" ++ url.drop 8 := hscheme
    _ = str "https://" ++ (o.host ++ 58 :: q ++ (url.drop 8).dropWhile fun c => c ≠ 47 ∧ c ≠ 63 ∧ c ≠ 35) := by
      rw [hsplit]
    _ = _ := by simp [Origin.text, Origin.authority, hport]

lemma guard_of_names {origins : List Origin} {url : Str} {o o' : Origin} {rest : Str} (ho : o ∈ origins)
    (ho' : o' ∈ origins) (hbegins : o'.Begins url rest) (hnames : o.Names (authority url)) :
    ∃ o ∈ origins, ∃ rest, o.Begins url rest ∧ (o.port = none ∨ rest.head? ≠ some 58) := by
  by_cases hguard : o'.port = none ∨ rest.head? ≠ some 58
  · exact ⟨o', ho', rest, hbegins, hguard⟩
  · rw [not_or, not_not] at hguard
    obtain ⟨p', hport'⟩ := Option.ne_none_iff_exists'.mp hguard.1
    obtain ⟨more, rfl⟩ : ∃ more, rest = 58 :: more := ⟨_, List.eq_cons_of_mem_head? hguard.2⟩
    obtain ⟨p, hp⟩ := authority_of_begins_colon hbegins
    rw [hp] at hnames
    obtain ⟨hport, q, hq⟩ := port_of_names hport' hnames
    obtain ⟨more', hmore⟩ := begins_of_authority hbegins hport (hp.trans hq)
    exact ⟨o, ho, _, hmore, Or.inl hport⟩

lemma hostGuard_iff {origins : List Origin} {url : Str}
    (haccept : isAllowedOrigin (origins.map Origin.text) url = true) :
    SameHost origins url ↔ HostGuard origins url := by
  rw [sameHost_iff]
  unfold HostGuard
  split_ifs with huser
  · rfl
  · rw [behindUser_of_not_mem huser]
    obtain ⟨o', ho', rest, hbegins⟩ := (isAllowedOrigin_iff origins url).mp haccept
    constructor
    · rintro ⟨o, ho, hnames⟩
      exact guard_of_names ho ho' hbegins hnames
    · rintro ⟨o, ho, rest, hbegins, hrest⟩
      exact ⟨o, ho, names_of_begins hbegins hrest⟩

/-- Every URL that is accepted has the host of an allowed origin, and its port if it has one, exactly when it is in
the guard. -/
theorem sameHost_of_isAllowedOrigin_iff (origins : List Origin) (url : Str) :
    (isAllowedOrigin (origins.map Origin.text) url = true → SameHost origins url) ↔
      (isAllowedOrigin (origins.map Origin.text) url = true → HostGuard origins url) := by
  constructor
  · intro h haccept
    exact (hostGuard_iff haccept).mp (h haccept)
  · intro h haccept
    exact (hostGuard_iff haccept).mpr (h haccept)

/-! ### The list that is configured -/

def localhost : Origin :=
  ⟨str "localhost", none, Or.inl ⟨by decide +kernel, List.all_eq_true.mp (by decide +kernel)⟩, by simp⟩

def loopback : Origin :=
  ⟨str "127.0.0.1", none, Or.inl ⟨by decide +kernel, List.all_eq_true.mp (by decide +kernel)⟩, by simp⟩

def loopback6 : Origin :=
  ⟨str "[::1]", none, Or.inr ⟨str "::1", by decide +kernel, List.all_eq_true.mp (by decide +kernel)⟩, by simp⟩

lemma decimal_digits (n : ℕ) : decimal n ≠ [] ∧ ∀ c ∈ decimal n, 48 ≤ c ∧ c ≤ 57 := by
  have hdigits : decimal n = (digits (n + 1) n).reverse := by simp [decimal]
  have hdigit : ∀ d < 10, 48 ≤ digit d ∧ digit d ≤ 57 := by decide
  rw [hdigits]
  refine ⟨fun h => digits_ne_nil (Nat.lt_succ_self n) (List.reverse_eq_nil_iff.mp h), fun c hc => ?_⟩
  obtain ⟨d, hd, rfl⟩ := mem_digits (List.mem_reverse.mp hc)
  exact hdigit d hd

def Origin.onPort (o : Origin) (port : UInt16) : Origin :=
  { host := o.host
    port := some (decimal port.toNat)
    host_ok := o.host_ok
    port_ok := by
      rintro p ⟨⟩
      exact decimal_digits port.toNat }

/-- The origins of the list, when the entries are origins. -/
def configured (origins : List Origin) (port : UInt16) : List Origin :=
  [localhost, loopback, loopback6] ++ origins ++ [localhost, loopback, loopback6].map (Origin.onPort · (port + 1))

lemma host_ne_nil (o : Origin) : o.host ≠ [] := by
  rcases o.host_ok with ⟨hne, -⟩ | ⟨address, haddress, -⟩
  · exact hne
  · simp [haddress]

lemma authority_ne_nil (o : Origin) : o.authority ≠ [] := by
  cases hport : o.port with
  | none =>
    simp only [Origin.authority, hport]
    exact host_ne_nil o
  | some p => simp [Origin.authority, hport]

lemma text_accepted (o : Origin) : 8 < o.text.length ∧ (str "https://").isPrefixOf o.text := by
  have hscheme : (str "https://").length = 8 := by decide +kernel
  refine ⟨?_, List.isPrefixOf_iff_prefix.mpr ⟨o.authority, rfl⟩⟩
  have := List.length_pos_iff.mpr (authority_ne_nil o)
  rw [Origin.text, List.length_append, hscheme]
  omega

theorem csrfAllowedOrigins_text (origins : List Origin) (port : UInt16) :
    csrfAllowedOrigins (origins.map Origin.text) port = (configured origins port).map Origin.text := by
  have hfilter : (origins.map Origin.text).filter
      (fun origin => 8 < origin.length ∧ (str "https://").isPrefixOf origin) = origins.map Origin.text := by
    rw [List.filter_eq_self]
    intro origin horigin
    obtain ⟨o, -, rfl⟩ := List.mem_map.mp horigin
    exact decide_eq_true (text_accepted o)
  unfold csrfAllowedOrigins configured
  rw [hfilter]
  simp only [List.map_append, List.map_cons, List.map_nil]
  rfl

/-- Behind `https://localhost:`, the host of an attacker. -/
theorem isAllowedOrigin_user :
    isAllowedOrigin (csrfAllowedOrigins [] 47989) (str "https://localhost:x@evil.com/") = true ∧
      ¬ SameHost (configured [] 47989) (str "https://localhost:x@evil.com/") := by
  have hhost : hostOf (str "https://localhost:x@evil.com/") = str "evil.com" := by decide +kernel
  have hnone : (configured [] 47989).all (fun o => o.host ≠ str "evil.com") = true := by decide +kernel
  refine ⟨by decide +kernel, ?_⟩
  rintro ⟨o, ho, hname, -⟩
  have := of_decide_eq_true (List.all_eq_true.mp hnone o ho)
  exact this (hname.symm.trans hhost)

end MidnightSun.Confighttp
