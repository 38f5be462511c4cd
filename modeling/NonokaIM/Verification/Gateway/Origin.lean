import NonokaIM.Library.DelimitedText
import NonokaIM.Model.CheckOrigin

/-! # Pages that may open a WebSocket

The check compares ends of texts: a bare host matches wherever an origin ends with it. -/

namespace NonokaIM

open DelimitedText List

/-- A host name or an address. Only an IPv6 address has colons, and it stands in brackets. -/
structure Host where
  text : List Char
  text_ne : text ≠ []
  no_slash : '/' ∉ text
  bracketed : ':' ∈ text → text.getLast? = some ']'

/-- The origin of a page: `scheme://host[:port]`. -/
structure SiteOrigin where
  scheme : List Char
  host : Host
  port : Option (List Char) := none
  scheme_no_slash : '/' ∉ scheme
  port_digits : ∀ digits ∈ port, ∀ c ∈ digits, c.isDigit = true

def SiteOrigin.authority (site : SiteOrigin) : List Char :=
  site.host.text ++ site.port.elim [] (':' :: ·)

def SiteOrigin.text (site : SiteOrigin) : List Char :=
  site.scheme ++ ':' :: '/' :: '/' :: site.authority

/-- An allowed origin: a host, or a scheme and a host. -/
structure AllowedOrigin where
  scheme : Option (List Char) := none
  host : Host

def AllowedOrigin.text (entry : AllowedOrigin) : List Char :=
  entry.scheme.elim [] (· ++ [':', '/', '/']) ++ entry.host.text

/-- A configured text stands for an allowed origin. -/
def Names (configured : String) (entry : AllowedOrigin) : Prop :=
  trimSpace configured.toList = entry.text

/-- The separators of an origin are their own lower case, and that of no other character. -/
structure KeepsSeparators (toLower : Char → Char) : Prop where
  slash : ∀ c, toLower c = '/' ↔ c = '/'
  colon : ∀ c, toLower c = ':' ↔ c = ':'
  bracket : ∀ c, toLower c = ']' ↔ c = ']'

/-! ## Lower case -/

variable {toLower : Char → Char}

theorem mem_map_lower {sep : Char} (h : ∀ c, toLower c = sep ↔ c = sep) {text : List Char} :
    sep ∈ text.map toLower ↔ sep ∈ text := by
  rw [mem_map]
  constructor
  · rintro ⟨c, hc, hlower⟩
    exact (h c).mp hlower ▸ hc
  · intro hmem
    exact ⟨sep, hmem, (h sep).mpr rfl⟩

theorem SiteOrigin.no_slash (site : SiteOrigin) : '/' ∉ site.authority := by
  rw [SiteOrigin.authority, mem_append, not_or]
  refine ⟨site.host.no_slash, ?_⟩
  cases hport : site.port with
  | none => exact not_mem_nil
  | some digits =>
    rw [Option.elim_some, mem_cons, not_or]
    refine ⟨by decide, fun hslash => ?_⟩
    have hdigit := site.port_digits digits hport '/' hslash
    exact absurd hdigit (by decide)

variable {site : SiteOrigin} {host : Host}

theorem SiteOrigin.getLast_authority {digits : List Char} (hport : site.port = some digits) :
    site.authority.getLast? ≠ some ']' := by
  intro hlast
  rw [SiteOrigin.authority, hport, Option.elim_some, getLast?_append_cons] at hlast
  have hmem := mem_of_getLast? hlast
  rcases mem_cons.mp hmem with hcolon | hdigit
  · exact absurd hcolon (by decide)
  · exact absurd (site.port_digits digits hport ']' hdigit) (by decide)

theorem SiteOrigin.port_eq_none (hlower : KeepsSeparators toLower)
    (h : host.text.map toLower = site.authority.map toLower) : site.port = none := by
  cases hport : site.port with
  | none => rfl
  | some digits =>
    exfalso
    have hcolon : ':' ∈ site.authority := by
      rw [SiteOrigin.authority, hport, mem_append]
      exact .inr mem_cons_self
    rw [← mem_map_lower hlower.colon, ← h, mem_map_lower hlower.colon] at hcolon
    have hlast := congrArg getLast? h
    rw [getLast?_map, getLast?_map, host.bracketed hcolon] at hlast
    cases hend : site.authority.getLast? with
    | none =>
      rw [hend] at hlast
      cases hlast
    | some c =>
      rw [hend, Option.map_some, Option.map_some, Option.some.injEq] at hlast
      have hbracket := (hlower.bracket c).mp (hlast ▸ (hlower.bracket ']').mpr rfl)
      exact SiteOrigin.getLast_authority hport (hbracket ▸ hend)

/-! ## The check -/

theorem buildCheckOrigin_iff {allowedOrigins : List String} (hne : allowedOrigins ≠ [])
    {origin : String} (horigin : origin.toList ≠ []) :
    buildCheckOrigin toLower allowedOrigins origin = true ↔
      ∃ o ∈ allowedOrigins, (trimSpace o.toList).map toLower <:+ origin.toList.map toLower := by
  unfold buildCheckOrigin
  rw [if_neg hne]
  simp only [map_eq_nil_iff, horigin, if_false, any_map, any_eq_true,
    Function.comp_apply, Bool.or_eq_true, decide_eq_true_eq, isSuffixOf_iff_suffix]
  refine exists_congr fun o => and_congr_right fun _ => or_iff_right_of_imp fun heq => ?_
  exact heq ▸ suffix_rfl

theorem map_lower_scheme (hlower : KeepsSeparators toLower) (scheme rest : List Char) :
    (scheme ++ ':' :: '/' :: '/' :: rest).map toLower =
      (scheme.map toLower ++ [':', '/']) ++ '/' :: rest.map toLower := by
  simp [(hlower.slash '/').mpr rfl, (hlower.colon ':').mpr rfl]

theorem Host.no_slash_lower (host : Host) (hlower : KeepsSeparators toLower) :
    '/' ∉ host.text.map toLower := by
  rw [mem_map_lower hlower.slash]
  exact host.no_slash

theorem suffix_authority (hlower : KeepsSeparators toLower)
    (h : host.text.map toLower <:+ site.text.map toLower) :
    host.text.map toLower <:+ site.authority.map toLower := by
  rw [SiteOrigin.text, map_lower_scheme hlower] at h
  exact suffix_of_append_sep (host.no_slash_lower hlower) h

theorem host_eq_of_scheme (hlower : KeepsSeparators toLower) {scheme : List Char}
    (h : (scheme ++ ':' :: '/' :: '/' :: host.text).map toLower <:+ site.text.map toLower) :
    site.host.text.map toLower = host.text.map toLower := by
  obtain ⟨before, h⟩ := h
  rw [SiteOrigin.text, map_lower_scheme hlower, map_lower_scheme hlower, ← append_assoc] at h
  have hslash : '/' ∉ site.authority.map toLower := by
    rw [mem_map_lower hlower.slash]
    exact site.no_slash
  obtain ⟨-, hhost⟩ := sep_append_inj (host.no_slash_lower hlower) hslash h
  have hport := SiteOrigin.port_eq_none hlower hhost
  rw [hhost, SiteOrigin.authority, hport, Option.elim_none, append_nil]

/-- The host of the origin is the given host or a subdomain of it. -/
def SiteOrigin.Within (toLower : Char → Char) (site : SiteOrigin) (host : Host) : Prop :=
  site.host.text.map toLower = host.text.map toLower ∨
    '.' :: host.text.map toLower <:+ site.host.text.map toLower
  deriving Decidable

/-- An origin that is accepted has the host of an allowed origin, or its host and port end with an
allowed origin that is a bare host. -/
theorem accepted_origin_ends_with_host (hlower : KeepsSeparators toLower)
    {allowedOrigins : List String} (hne : allowedOrigins ≠ [])
    (hentries : ∀ o ∈ allowedOrigins, ∃ entry, Names o entry) {site : SiteOrigin}
    (h : buildCheckOrigin toLower allowedOrigins (.ofList site.text) = true) :
    ∃ o ∈ allowedOrigins, ∃ entry, Names o entry ∧
      (site.host.text.map toLower = entry.host.text.map toLower ∨
        entry.scheme = none ∧ entry.host.text.map toLower <:+ site.authority.map toLower) := by
  have htext : (String.ofList site.text).toList = site.text := String.toList_ofList
  have hsite : site.text ≠ [] := by simp [SiteOrigin.text]
  rw [buildCheckOrigin_iff hne (by rwa [htext])] at h
  rw [htext] at h
  obtain ⟨o, ho, hsuffix⟩ := h
  obtain ⟨entry, hentry⟩ := hentries o ho
  refine ⟨o, ho, entry, hentry, ?_⟩
  rw [hentry] at hsuffix
  cases hscheme : entry.scheme with
  | none =>
    rw [AllowedOrigin.text, hscheme, Option.elim_none, nil_append] at hsuffix
    exact .inr ⟨rfl, suffix_authority hlower hsuffix⟩
  | some scheme =>
    rw [AllowedOrigin.text, hscheme, Option.elim_some, append_assoc] at hsuffix
    exact .inl (host_eq_of_scheme hlower hsuffix)

theorem toLower_eq_iff {sep : Char} (h : sep.toNat < 65 ∨ sep.toNat = 93) (c : Char) :
    c.toLower = sep ↔ c = sep := by
  unfold Char.toLower
  split
  · next hupper =>
    have h65 : 65 ≤ c.toNat := hupper.1
    have h90 : c.toNat ≤ 90 := hupper.2
    constructor
    · rintro rfl
      have hval : (c.val + ('a'.val - 'A'.val)).toNat = c.toNat + 32 := by
        rw [UInt32.toNat_add]
        exact Nat.mod_eq_of_lt (by change c.toNat + 32 < 2 ^ 32; omega)
      change (c.val + ('a'.val - 'A'.val)).toNat < 65 ∨
        (c.val + ('a'.val - 'A'.val)).toNat = 93 at h
      omega
    · rintro rfl
      omega
  · exact Iff.rfl

theorem keepsSeparators_toLower : KeepsSeparators Char.toLower where
  slash := toLower_eq_iff (by decide)
  colon := toLower_eq_iff (by decide)
  bracket := toLower_eq_iff (by decide)

def exampleHost : Host where
  text := "example.com".toList
  text_ne := by decide
  no_slash := by decide
  bracketed := by decide

def chatSite : SiteOrigin where
  scheme := "https".toList
  host := ⟨"Chat.Example.com".toList, by decide, by decide, by decide⟩
  scheme_no_slash := by decide
  port_digits := by simp

theorem accepted_origin_chatSite :
    buildCheckOrigin Char.toLower [" Example.com"] (.ofList chatSite.text) = true ∧
      ∃ o ∈ [" Example.com"], ∃ entry, Names o entry ∧
        (chatSite.host.text.map Char.toLower = entry.host.text.map Char.toLower ∨
          entry.scheme = none ∧
            entry.host.text.map Char.toLower <:+ chatSite.authority.map Char.toLower) := by
  have haccept :
      buildCheckOrigin Char.toLower [" Example.com"] (.ofList chatSite.text) = true := by
    decide
  refine ⟨haccept, accepted_origin_ends_with_host keepsSeparators_toLower (cons_ne_nil _ _)
    (forall_mem_singleton.mpr ⟨⟨none, ?_⟩, ?_⟩) haccept⟩
  · exact ⟨"Example.com".toList, by decide, by decide, by decide⟩
  · unfold Names
    decide

def foreignSite : SiteOrigin where
  scheme := "https".toList
  host := ⟨"evilexample.com".toList, by decide, by decide, by decide⟩
  scheme_no_slash := by decide
  port_digits := by simp

def digitsHost : Host where
  text := "8080".toList
  text_ne := by decide
  no_slash := by decide
  bracketed := by decide

def foreignPort : SiteOrigin where
  scheme := "https".toList
  host := ⟨"evil.com".toList, by decide, by decide, by decide⟩
  port := some "8080".toList
  scheme_no_slash := by decide
  port_digits := by
    intro digits hdigits
    obtain rfl := Option.some.inj hdigits
    exact all_eq_true.mp (by decide)

/-- A host that merely ends with an allowed name is accepted, and so is a port that does. -/
theorem accepted_foreign_sites :
    (Names "example.com" ⟨none, exampleHost⟩ ∧
      buildCheckOrigin Char.toLower ["example.com"] (.ofList foreignSite.text) = true ∧
      ¬ foreignSite.Within Char.toLower exampleHost) ∧
    Names "8080" ⟨none, digitsHost⟩ ∧
      buildCheckOrigin Char.toLower ["8080"] (.ofList foreignPort.text) = true ∧
      ¬ foreignPort.Within Char.toLower digitsHost := by
  unfold Names
  decide

end NonokaIM
