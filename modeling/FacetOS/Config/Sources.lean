import FacetOS.Config.Users

/-!
# The source index of a domain

A new domain table is filled with zeros, no key writes its source index, and
validation stores a position in the table of sources there, if the domain names
one.  The index of an accepted domain is therefore always a small number.
-/

namespace FacetOS.Config

open Scanner Passes

theorem validateDomainSource_le {config : FacetSystemConfig} {domain : FacetConfigDomain}
    {index : ℕ} (hdomain : domain.authenticationSourceIndex = 0)
    (hstep : validateDomainSource config domain = .ok index) :
    index ≤ config.authenticationSources.length := by
  unfold validateDomainSource at hstep
  split at hstep
  · rw [← Except.ok.inj hstep, hdomain]
    exact Nat.zero_le _
  · obtain ⟨hindex, -⟩ := List.findIdx?_eq_some_iff_getElem.mp (required_eq_ok.mp hstep)
    exact hindex.le

section

variable {config : FacetSystemConfig} {data : List UInt8}
  (hparse : facetConfigParse data = .ok config)
include hparse

/-- An accepted domain has an id, and its index is the position of a source or zero. -/
theorem accepted_domains :
    ∀ domain ∈ config.domains, domain.id ≠ none
      ∧ domain.authenticationSourceIndex ≤ facetConfigMaxArrayElements := by
  obtain ⟨filled, checked, hclean, hlength, -, -, hdomains⟩ := accepted_rows hparse
  intro domain hdomain
  obtain ⟨before, original, hmem, hstep⟩ := mapEach_mem hdomains hdomain
  obtain ⟨hid, -, hindex⟩ := validateDomain_checks hstep
  have hle := validateDomainSource_le (hclean.domains original hmem).unindexed hindex
  exact ⟨hid, (hle.trans hlength.le).trans hclean.sources⟩

/-- Accepted domains are told apart by their ids. -/
theorem accepted_domain_ids {left right : ℕ} {first second : FacetConfigDomain}
    (hfirst : config.domains[left]? = some first) (hsecond : config.domains[right]? = some second)
    (hid : first.id.getD 0 = second.id.getD 0) : left = right := by
  obtain ⟨parser, after, -, hvalid⟩ := facetConfigParse_ok hparse
  have hunique := (validateRequired_ok hvalid).2.domainIds
  obtain ⟨firstId, hfirstId⟩ := Option.ne_none_iff_exists'.mp
    (accepted_domains hparse first (List.mem_of_getElem? hfirst)).1
  obtain ⟨secondId, hsecondId⟩ := Option.ne_none_iff_exists'.mp
    (accepted_domains hparse second (List.mem_of_getElem? hsecond)).1
  have hsame : first.id = second.id := by
    rw [hfirstId, hsecondId] at hid ⊢
    exact congrArg some hid
  have hleft : (config.domains.map FacetConfigDomain.id)[left]? = some first.id := by
    rw [List.getElem?_map, hfirst, Option.map_some]
  have hright : (config.domains.map FacetConfigDomain.id)[right]? = some first.id := by
    rw [List.getElem?_map, hsecond, Option.map_some, hsame]
  obtain ⟨hbound, -⟩ := List.getElem?_eq_some_iff.mp hleft
  exact (List.getElem?_inj hbound hunique).mp (hleft.trans hright.symm)

end

/-! ## A configuration without sources -/

/-- A native and a POSIX domain, neither of which names an authentication source. -/
def twoDomains : List UInt8 :=
  utf8Text "[facet]\nversion = 1\nseat_initrd = \"s\"\n"
    ++ utf8Text "[[logging_sinks]]\nname = \"l\"\ntype = \"l\"\nrequired = true\n"
    ++ utf8Text "[[users]]\nname = \"root\"\nadmin = true\nuid = 0\ngid = 0\n"
    ++ utf8Text "password_hash = \"$5$facet$j7FgoXidvJl10CTaW0nguGP3ZnvKnqS3/IHmDVliPQ9\"\n"
    ++ utf8Text "home_path = \"/\"\nposix_shell = \"/s\"\n"
    ++ utf8Text "[[users]]\nname = \"user\"\nadmin = false\nuid = 1\ngid = 1\n"
    ++ utf8Text "password_hash = \"$5$s$h\"\nhome_path = \"/\"\n"
    ++ utf8Text "[[seats]]\nname = \"s\"\ntype = \"serial\"\nserver = \"/s\"\n"
    ++ utf8Text "terminals = [\"0\", \"1\", \"2\"]\n"
    ++ utf8Text "[[domains]]\nid = 0\nname = \"n\"\npersonality = \"native\"\n"
    ++ utf8Text "domain_manager = \"local\"\ninitrd = \"n\"\n"
    ++ utf8Text "logging_sinks = [\x7b name = \"l\", level = \"info\" \x7d]\n"
    ++ utf8Text "terminals = [\x7b terminal = \"s.0\", view = \"native\", "
    ++ utf8Text "initial_process = \"/i\", run_as = \"user\" \x7d, "
    ++ utf8Text "\x7b terminal = \"s.1\", view = \"posix\", initial_process = \"/i\" \x7d]\n"
    ++ utf8Text "[[domains]]\nid = 1\nname = \"p\"\npersonality = \"posix\"\n"
    ++ utf8Text "domain_manager = \"local\"\npid1 = \"/i\"\ninitrd = \"p\"\n"
    ++ utf8Text "logging_sinks = [\x7b name = \"l\", level = \"info\" \x7d]\n"
    ++ utf8Text "terminals = [\x7b terminal = \"s.2\", device = \"t\", run_as = \"user\" \x7d]\n"

def twoDomainsUsers : List FacetConfigUser :=
  [{ name := some (utf8Text "root")
     passwordHash := some (utf8Text "$5$facet$j7FgoXidvJl10CTaW0nguGP3ZnvKnqS3/IHmDVliPQ9")
     admin := some true, uid := some 0, gid := some 0, homePath := some (utf8Text "/")
     posixShell := some (utf8Text "/s") },
   { name := some (utf8Text "user"), passwordHash := some (utf8Text "$5$s$h"), admin := some false
     uid := some 1, gid := some 1, homePath := some (utf8Text "/") }]

def twoDomainsConfig : FacetSystemConfig where
  version := 1
  seatInitrd := some (utf8Text "s")
  loggingSinks :=
    [{ name := some (utf8Text "l"), type := some (utf8Text "l"), required := some true }]
  users := twoDomainsUsers
  seats := [{ name := some (utf8Text "s"), type := some .serial, server := some (utf8Text "/s")
              terminals := some [utf8Text "0", utf8Text "1", utf8Text "2"] }]
  domains :=
    [{ id := some 0, name := some (utf8Text "n"), personality := some .native
       domainManager := some .local, initrd := some (utf8Text "n")
       loggingSinks := some [{ name := utf8Text "l", level := .info }]
       terminals := some
         [{ reference := some (utf8Text "s.0"), view := some .native
            initialProcess := some (utf8Text "/i"), runAs := some (utf8Text "user") },
          { reference := some (utf8Text "s.1"), terminalIndex := 1, view := some .posix
            initialProcess := some (utf8Text "/i") }] },
     { id := some 1, name := some (utf8Text "p"), personality := some .posix
       domainManager := some .local, pid1 := some (utf8Text "/i"), initrd := some (utf8Text "p")
       loggingSinks := some [{ name := utf8Text "l", level := .info }]
       terminals := some
         [{ reference := some (utf8Text "s.2"), terminalIndex := 2
            deviceName := some (utf8Text "t"), runAs := some (utf8Text "user") }] }]

theorem twoDomains_accepted : facetConfigParse twoDomains = .ok twoDomainsConfig := by
  decide +kernel

end FacetOS.Config
