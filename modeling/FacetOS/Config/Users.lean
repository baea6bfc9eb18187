import FacetOS.Config.Integrity
import FacetOS.Config.Progress

/-!
# The users of an accepted configuration

Every user of an accepted configuration, global or declared by a domain, has a
nonempty name, a password hash, ids and an absolute home, and none of its texts
holds a zero byte, so that they are C strings as they stand.
-/

namespace FacetOS.Config

open Scanner Passes

/-! ## Strings hold no zero byte -/

theorem toUInt8_ne_zero {value : ℕ} (hpositive : 0 < value) (hbound : value < 256) :
    value.toUInt8 ≠ 0 := by
  intro heq
  have hvalue : value.toUInt8.toNat = 0 := by rw [heq]; rfl
  rw [Nat.toUInt8_eq, UInt8.toNat_ofNat', Nat.mod_eq_of_lt hbound] at hvalue
  omega

theorem zero_not_mem_utf8Bytes {scalar : ℕ} (hpositive : 0 < scalar)
    (hbound : scalar ≤ 0x10ffff) : 0 ∉ utf8Bytes scalar := by
  have hlead : ∀ lead value, 0x80 ≤ lead → lead + value < 256 →
      (0 : UInt8) ≠ (lead + value).toUInt8 :=
    fun lead value hlead hvalue => (toUInt8_ne_zero (by omega) hvalue).symm
  unfold utf8Bytes
  split_ifs <;> simp only [List.mem_cons, List.not_mem_nil, or_false, not_or]
  · exact (toUInt8_ne_zero hpositive (by omega)).symm
  all_goals and_intros <;> exact hlead _ _ (by omega) (by omega)

theorem returns_refuse (condition : Prop) [Decidable condition]
    (category : FacetConfigDiagnosticCategory) (context message : String) :
    Returns (refuse condition (fail category context message)) (fun _ => ¬condition) :=
  (refuse_yields condition category context message).mono (fun _ _ _ => And.left)

variable {value : Value} {α : Type} {config : FacetSystemConfig} {key buffer data : List UInt8}
  {line column index : ℕ} {user : FacetConfigUser} {domain : FacetConfigDomain}

theorem returns_fail (category : FacetConfigDiagnosticCategory) (context message : String)
    (property : α → Prop) :
    Returns (fail category context message) property :=
  returns_bind (fun _ => yields_throw _ _)

theorem returns_appendUtf8 {scalar : ℕ} (hbuffer : 0 ∉ buffer) (hscalar : scalar ≠ 0) :
    Returns (appendUtf8 buffer scalar) (fun text => 0 ∉ text) := by
  refine (returns_refuse _ _ _ _).bind (fun _ hvalid => returns_bind (fun _ => returns_pure ?_))
  rw [List.mem_append, not_or]
  exact ⟨hbuffer, zero_not_mem_utf8Bytes (Nat.pos_of_ne_zero hscalar) (by omega)⟩

theorem returns_appendRawByte {raw : UInt8} (hbuffer : 0 ∉ buffer) (hraw : raw ≠ 0) :
    Returns (appendRawByte buffer raw) (fun text => 0 ∉ text) := by
  refine returns_bind (fun _ => returns_pure ?_)
  rw [List.mem_append, List.mem_singleton, not_or]
  exact ⟨hbuffer, hraw.symm⟩

theorem returns_quotedCharacter (quote c : UInt8) (hbuffer : 0 ∉ buffer) :
    Returns (quotedCharacter quote c buffer) (fun text => 0 ∉ text) := by
  refine returns_bind (fun _ => Returns.ite (fun _ => ?_) (fun _ => ?_))
  · refine returns_bind (fun scalar => (returns_refuse _ _ _ _).bind (fun _ hscalar => ?_))
    exact returns_appendUtf8 hbuffer hscalar
  · refine (returns_refuse _ _ _ _).bind (fun _ hraw => returns_bind (fun _ => ?_))
    exact returns_appendRawByte hbuffer hraw

theorem returns_quotedLoop (quote : UInt8) (fuel : ℕ) (hbuffer : 0 ∉ buffer) :
    Returns (quotedLoop quote fuel buffer) (fun text => 0 ∉ text) := by
  induction fuel generalizing buffer with
  | zero => exact returns_pure hbuffer
  | succ fuel ih =>
    refine returns_bind (fun c => ?_)
    cases c with
    | none => exact returns_pure hbuffer
    | some c =>
      refine Returns.ite (fun _ => returns_pure hbuffer) (fun _ => returns_bind (fun _ => ?_))
      exact (returns_quotedCharacter quote c hbuffer).bind (fun _ hnext => ih hnext)

theorem returns_parseQuotedString (quote : UInt8) :
    Returns (parseQuotedString quote) (fun text => 0 ∉ text) := by
  refine returns_bind (fun _ => returns_bind (fun cursor => ?_))
  refine (returns_quotedLoop quote _ List.not_mem_nil).bind (fun text htext => ?_)
  exact returns_bind (fun _ => returns_bind (fun _ => returns_pure htext))

/-- No string of the value, however deep, holds a zero byte. -/
inductive CleanValue : Value → Prop
  | string (line column : ℕ) {text : List UInt8} : 0 ∉ text → CleanValue (.string line column text)
  | integer (line column : ℕ) (number : ℤ) : CleanValue (.integer line column number)
  | boolean (line column : ℕ) (truth : Bool) : CleanValue (.boolean line column truth)
  | array (line column : ℕ) {items : List Value} :
      (∀ item ∈ items, CleanValue item) → CleanValue (.array line column items)
  | table (line column : ℕ) {entries : List (TableKey × Value)} :
      (∀ entry ∈ entries, CleanValue entry.2) → CleanValue (.table line column entries)

/-- One more row with the property. -/
theorem forall_mem_concat {property : α → Prop} {rows : List α} {row : α}
    (hrows : ∀ other ∈ rows, property other) (hrow : property row) :
    ∀ other ∈ rows ++ [row], property other :=
  List.forall_mem_append.mpr ⟨hrows, List.forall_mem_singleton.mpr hrow⟩

theorem returns_arrayLoop {item : Lexer Value} {property : Value → Prop}
    (hitem : Returns item property) (room : ℕ) {items : List Value}
    (hitems : ∀ value ∈ items, property value) :
    Returns (arrayLoop item room items) (fun values => ∀ value ∈ values, property value) := by
  induction room generalizing items with
  | zero => exact returns_bind (fun _ => returns_fail _ _ _ _)
  | succ room ih =>
    refine hitem.bind (fun value hvalue => returns_bind (fun _ => returns_bind (fun _ => ?_)))
    have hgrown := forall_mem_concat hitems hvalue
    refine Returns.ite (fun _ => returns_pure hgrown) (fun _ => ?_)
    refine returns_bind (fun _ => returns_bind (fun _ => returns_bind (fun _ => ?_)))
    exact Returns.ite (fun _ => returns_bind (fun _ => returns_pure hgrown)) (fun _ => ih hgrown)

theorem returns_tableLoop {item : Lexer Value} {property : Value → Prop}
    (hitem : Returns item property) (room : ℕ) {entries : List (TableKey × Value)}
    (hentries : ∀ entry ∈ entries, property entry.2) :
    Returns (tableLoop item room entries) (fun table => ∀ entry ∈ table, property entry.2) := by
  have hentry : Returns (parseTableEntry item) (fun entry => property entry.2) := by
    iterate 7 refine returns_bind (fun _ => ?_)
    exact hitem.bind (fun _ hvalue => returns_pure hvalue)
  induction room generalizing entries with
  | zero => exact returns_bind (fun _ => returns_fail _ _ _ _)
  | succ room ih =>
    refine hentry.bind (fun entry hvalue => ?_)
    have hgrown := forall_mem_concat hentries hvalue
    refine returns_bind (fun _ => returns_bind (fun _ => returns_bind (fun _ => ?_)))
    refine Returns.ite (fun _ => returns_pure hgrown) (fun _ => ?_)
    exact returns_bind (fun _ => returns_bind (fun _ => ih hgrown))

theorem returns_parseValue (levels : ℕ) : Returns (parseValue levels) CleanValue := by
  induction levels with
  | zero => exact returns_fail _ _ _ _
  | succ levels ih =>
    have hstring : ∀ quote line column,
        Returns (Value.string line column <$> parseQuotedString quote) CleanValue :=
      fun quote line column => (returns_parseQuotedString quote).map (fun _ => .string line column)
    have harray : Returns (parseArray (parseValue levels))
        (fun items => ∀ item ∈ items, CleanValue item) := by
      refine returns_bind (fun _ => returns_bind (fun _ => returns_bind (fun _ => ?_)))
      exact Returns.ite (fun _ => returns_bind (fun _ => returns_pure (by simp)))
        (fun _ => returns_arrayLoop ih _ (by simp))
    have htable : Returns (parseInlineTable (parseValue levels))
        (fun entries => ∀ entry ∈ entries, CleanValue entry.2) := by
      refine returns_bind (fun _ => returns_bind (fun _ => returns_bind (fun _ => ?_)))
      exact Returns.ite (fun _ => returns_bind (fun _ => returns_pure (by simp)))
        (fun _ => returns_tableLoop ih _ (by simp))
    refine returns_bind (fun start => ?_)
    refine Returns.ite (fun _ => hstring _ _ _) (fun _ => Returns.ite (fun _ => hstring _ _ _)
      (fun _ => ?_))
    refine Returns.ite (fun _ => harray.map (fun _ => .array _ _)) (fun _ => ?_)
    refine Returns.ite (fun _ => htable.map (fun _ => .table _ _)) (fun _ => ?_)
    iterate 2
      refine Returns.ite (fun _ => returns_bind (fun _ => returns_pure (.boolean _ _ _)))
        (fun _ => ?_)
    exact (returns_true _).map (fun number _ => .integer _ _ number)

/-! ## What every table and every assignment preserves -/

/-- A property of the configuration that is being filled, kept by each assignment and
by each header. -/
structure Preserved (property : FacetSystemConfig → Prop) : Prop where
  start : property {}
  apply : ∀ {sectionKind : SectionKind} {index : ℕ} {config result : FacetSystemConfig}
    {key : List UInt8} {line column : ℕ} {value : Value}, property config → CleanValue value →
    applyValue sectionKind index config key line column value = .ok result → property result
  grow : ∀ {parser : Parser}, property parser.config → ∀ array name,
    Returns (openTable parser array name) (fun result => property result.config)

namespace Preserved

variable {property : FacetSystemConfig → Prop} (hpreserved : Preserved property) {parser : Parser}

include hpreserved

theorem returns_parseLine (hparser : property parser.config) :
    Returns (parseLine parser) (fun result => property result.config) := by
  have hheader : Returns (parseHeader parser) (fun result => property result.config) :=
    returns_bind (fun _ => returns_bind (fun _ => returns_bind (fun _ =>
      hpreserved.grow hparser _ _)))
  have hassignment : Returns (parseAssignment parser)
      (fun result => property result.config) := by
    iterate 6 refine returns_bind (fun _ => ?_)
    refine (returns_parseValue _).bind (fun value hvalue => returns_bind (fun _ => ?_))
    refine (returns_lift (fun config happly =>
      hpreserved.apply hparser hvalue happly)).bind (fun config hconfig => ?_)
    exact returns_pure hconfig
  have hitem : Returns (parseItem parser) (fun result => property result.config) :=
    returns_bind (fun _ => Returns.ite (fun _ => hheader) (fun _ => hassignment))
  exact hitem.bind (fun result hresult => returns_bind (fun _ => returns_pure hresult))

theorem returns_parseLines (fuel : ℕ) (hparser : property parser.config) :
    Returns (parseLines fuel parser) (fun result => property result.config) := by
  induction fuel generalizing parser with
  | zero => exact yields_throw _ _
  | succ fuel ih =>
    refine returns_bind (fun c => Returns.ite (fun _ => returns_pure hparser) (fun _ => ?_))
    exact (hpreserved.returns_parseLine hparser).bind (fun _ hnext => ih hnext)

theorem returns_parseTables : Returns parseTables (fun result => property result.config) :=
  returns_bind (fun _ => returns_bind (fun _ => hpreserved.returns_parseLines _ hpreserved.start))

end Preserved

/-! ## Users as the tables fill them -/

/-- A text, if there is one, holds no zero byte. -/
def CleanText (text : Option (List UInt8)) : Prop :=
  ∀ given, text = some given → 0 ∉ given

structure CleanUser (user : FacetConfigUser) : Prop where
  name : CleanText user.name
  passwordHash : CleanText user.passwordHash
  homePath : CleanText user.homePath
  posixShell : CleanText user.posixShell

theorem cleanUser_default : CleanUser default :=
  ⟨nofun, nofun, nofun, nofun⟩

theorem takeString_ok {text : List UInt8} (hvalue : CleanValue value)
    (htake : takeString key value = .ok text) : 0 ∉ text := by
  cases hvalue with
  | string line column hgiven =>
    obtain rfl := Except.ok.inj htake
    exact hgiven
  | integer | boolean | array | table => cases htake

theorem assignOnce_ok {present : Option α} {duplicate : FacetConfigDiagnostic}
    {value : Except FacetConfigDiagnostic α} {result : Option α}
    (hassign : assignOnce present duplicate value = .ok result) :
    ∃ given, value = .ok given ∧ result = some given := by
  cases present with
  | some old => cases hassign
  | none =>
    obtain ⟨given, hvalue, hresult⟩ := map_eq_ok.mp hassign
    exact ⟨given, hvalue, hresult.symm⟩

theorem cleanText_assignOnce {present : Option (List UInt8)} {duplicate : FacetConfigDiagnostic}
    (hvalue : CleanValue value) {result : Option (List UInt8)}
    (hassign : assignOnce present duplicate (takeString key value) = .ok result) :
    CleanText result := by
  obtain ⟨given, htake, rfl⟩ := assignOnce_ok hassign
  rintro text ⟨⟩
  exact takeString_ok hvalue htake

theorem ite_eq_cases {condition goal : Prop} [Decidable condition] {first second result : α}
    (hite : (if condition then first else second) = result) (hfirst : first = result → goal)
    (hsecond : second = result → goal) : goal := by
  by_cases hcondition : condition
  · exact hfirst (by rwa [if_pos hcondition] at hite)
  · exact hsecond (by rwa [if_neg hcondition] at hite)

/-- What holds of every assigned record holds of the result. -/
theorem assigned_ok {β : Type} {first : Except FacetConfigDiagnostic α} {assign : α → β}
    {property : β → Prop} {result : β}
    (hassign : ∀ value, first = .ok value → property (assign value))
    (hresult : (first >>= fun value => pure (assign value)) = .ok result) : property result := by
  obtain ⟨value, hfirst, hvalue⟩ := Passes.bind_eq_ok.mp hresult
  exact Except.ok.inj hvalue ▸ hassign value hfirst

theorem cleanUser_userKey {result : FacetConfigUser} {idLine idColumn : ℕ} (huser : CleanUser user)
    (hvalue : CleanValue value)
    (hkey : userKey user key line column value idLine idColumn = .ok result) :
    CleanUser result := by
  unfold userKey at hkey
  -- one branch for each key, in the order of the definition
  refine ite_eq_cases hkey (assigned_ok fun _ hassign =>
    { huser with name := cleanText_assignOnce hvalue hassign }) (fun hkey => ?_)
  refine ite_eq_cases hkey (assigned_ok fun _ hassign =>
    { huser with passwordHash := cleanText_assignOnce hvalue hassign }) (fun hkey => ?_)
  iterate 2
    refine ite_eq_cases hkey (assigned_ok fun _ _ => { huser with }) (fun hkey => ?_)
  refine ite_eq_cases hkey (assigned_ok fun _ hassign =>
    { huser with posixShell := cleanText_assignOnce hvalue hassign }) (fun hkey => ?_)
  refine ite_eq_cases hkey (assigned_ok fun _ hassign =>
    { huser with homePath := cleanText_assignOnce hvalue hassign }) (fun hkey => ?_)
  iterate 2
    refine ite_eq_cases hkey (assigned_ok fun _ _ => { huser with }) (fun hkey => ?_)
  contradiction

/-! ## Users in inline tables -/

theorem cleanUser_userFromTable {table : Value} (htable : CleanValue table)
    (huser : userFromTable table = .ok user) : CleanUser user := by
  obtain ⟨entries, hentries, hfold⟩ := Passes.bind_eq_ok.mp huser
  cases htable with
  | table line column hclean =>
    obtain rfl := Except.ok.inj hentries
    refine foldlM_keeps ?_ cleanUser_default hfold
    intro entry hentry before after hbefore hstep
    exact cleanUser_userKey hbefore (hclean entry hentry) hstep
  | string | integer | boolean | array => cases hentries

theorem cleanUsers_fromArray {users : List FacetConfigUser} (hvalue : CleanValue value)
    (husers : domainUsersFromArray value = .ok users) :
    ∀ user ∈ users, CleanUser user := by
  obtain ⟨items, hitems, hpass⟩ := Passes.bind_eq_ok.mp husers
  cases hvalue with
  | array line column hclean =>
    obtain rfl := Except.ok.inj hitems
    intro user huser
    obtain ⟨item, hitem, htable⟩ := mapM_mem hpass user huser
    exact cleanUser_userFromTable (hclean item hitem) htable
  | string | integer | boolean | table => cases hitems

/-! ## Tables as the lines fill them -/

/-- The users of the domain are clean, and no key has written its source index. -/
structure CleanDomain (domain : FacetConfigDomain) : Prop where
  users : ∀ user ∈ domainUsers domain, CleanUser user
  unindexed : domain.authenticationSourceIndex = 0

theorem cleanDomain_default : CleanDomain default :=
  ⟨fun _ huser => (nomatch huser), rfl⟩

theorem cleanDomain_domainKey {result : FacetConfigDomain} (hdomain : CleanDomain domain)
    (hvalue : CleanValue value) (hkey : domainKey domain key line column value = .ok result) :
    CleanDomain result := by
  unfold domainKey at hkey
  -- nine keys leave the users alone
  iterate 9
    refine ite_eq_cases hkey (assigned_ok fun _ _ => { hdomain with }) (fun hkey => ?_)
  refine ite_eq_cases hkey (fun hkey => ?_) (fun hkey => ?_)
  · obtain ⟨users, hassign, hresult⟩ := Passes.bind_eq_ok.mp hkey
    obtain ⟨given, hgiven, rfl⟩ := assignOnce_ok hassign
    obtain rfl := Except.ok.inj hresult
    exact ⟨cleanUsers_fromArray hvalue hgiven, hdomain.unindexed⟩
  · contradiction

/-- What holds of the tables before validation. -/
structure CleanTables (config : FacetSystemConfig) : Prop where
  users : ∀ user ∈ config.users, CleanUser user
  domains : ∀ domain ∈ config.domains, CleanDomain domain
  sources : config.authenticationSources.length ≤ facetConfigMaxArrayElements

/-- The keys of `[facet]` leave the tables alone. -/
theorem rows_facetKey {result : FacetSystemConfig}
    (hkey : facetKey config key line column value = .ok result) :
    result.domains = config.domains ∧ result.users = config.users
      ∧ result.authenticationSources = config.authenticationSources := by
  unfold facetKey at hkey
  split at hkey
  · obtain ⟨initrd, -, hresult⟩ := bind_eq_ok.mp hkey
    rw [← Except.ok.inj hresult]
    exact ⟨rfl, rfl, rfl⟩
  split at hkey
  · contradiction
  split at hkey
  · contradiction
  obtain ⟨number, -, hnumber⟩ := bind_eq_ok.mp hkey
  split at hnumber
  · contradiction
  · rw [← Except.ok.inj hnumber]
    exact ⟨rfl, rfl, rfl⟩

/-- What the empty record has and the update keeps, every row of the table keeps. -/
theorem forall_updateAt [Inhabited α] {property : α → Prop} {records result : List α}
    {update : α → Except FacetConfigDiagnostic α}
    (hupdate : updateAt records index update = .ok result)
    (hrecords : ∀ row ∈ records, property row) (hdefault : property default)
    (hkeeps : ∀ before after, property before → update before = .ok after → property after) :
    ∀ row ∈ result, property row := by
  obtain ⟨updated, hupdated, rfl⟩ := map_eq_ok.mp hupdate
  have hold : property (records.getD index default) := by
    rw [List.getD_eq_getElem?_getD]
    cases hentry : records[index]? with
    | none => exact hdefault
    | some row => exact hrecords row (List.mem_of_getElem? hentry)
  intro row hrow
  cases List.mem_or_eq_of_mem_set hrow with
  | inl hmem => exact hrecords row hmem
  | inr hnew => exact hnew ▸ hkeeps _ _ hold hupdated

theorem cleanTables_applyValue {sectionKind : SectionKind} {result : FacetSystemConfig}
    (hconfig : CleanTables config) (hvalue : CleanValue value)
    (happly : applyValue sectionKind index config key line column value = .ok result) :
    CleanTables result := by
  cases sectionKind with
  | none => contradiction
  | facet =>
    obtain ⟨hdomains, husers, hsources⟩ := rows_facetKey happly
    exact ⟨husers ▸ hconfig.users, hdomains ▸ hconfig.domains, hsources ▸ hconfig.sources⟩
  | user =>
    obtain ⟨users, hupdate, hresult⟩ := bind_eq_ok.mp happly
    obtain rfl := Except.ok.inj hresult
    have husers := forall_updateAt hupdate hconfig.users cleanUser_default
      (fun _ _ hbefore hkey => cleanUser_userKey hbefore hvalue hkey)
    exact { hconfig with users := husers }
  | domain =>
    obtain ⟨domains, hupdate, hresult⟩ := bind_eq_ok.mp happly
    obtain rfl := Except.ok.inj hresult
    have hdomains := forall_updateAt hupdate hconfig.domains cleanDomain_default
      (fun _ _ hbefore hkey => cleanDomain_domainKey hbefore hvalue hkey)
    exact { hconfig with domains := hdomains }
  | authenticationSource =>
    obtain ⟨sources, hupdate, hresult⟩ := bind_eq_ok.mp happly
    obtain rfl := Except.ok.inj hresult
    obtain ⟨updated, -, rfl⟩ := map_eq_ok.mp hupdate
    exact { hconfig with sources := List.length_set.trans_le hconfig.sources }
  | loggingSink | seat =>
    obtain ⟨rows, -, hresult⟩ := bind_eq_ok.mp happly
    obtain rfl := Except.ok.inj hresult
    exact { hconfig with }

/-- A grown array holds one more record, which is empty. -/
theorem returns_growArray [Inhabited α] (records : List α) :
    Returns (growArray records) (fun grown => grown = records ++ [default]
      ∧ grown.length ≤ facetConfigMaxArrayElements) := by
  refine (returns_refuse _ _ _ _).bind (fun _ hroom => returns_pure ⟨rfl, ?_⟩)
  rw [List.length_append, List.length_singleton]
  exact not_le.mp hroom

theorem cleanTables_openTable {parser : Parser} (hparser : CleanTables parser.config)
    (array : Bool) (name : TableKey) :
    Returns (openTable parser array name) (fun result => CleanTables result.config) := by
  refine Returns.ite (fun _ => returns_bind (fun _ => returns_pure hparser)) (fun _ => ?_)
  refine Returns.ite (fun _ => returns_bind (fun _ => returns_pure { hparser with })) (fun _ => ?_)
  refine Returns.ite (fun _ => (returns_growArray _).bind (fun sources hgrown =>
    returns_pure { hparser with sources := hgrown.2 })) (fun _ => ?_)
  refine Returns.ite (fun _ => (returns_growArray _).bind (fun users hgrown =>
    returns_pure { hparser with users := ?_ })) (fun _ => ?_)
  · rw [hgrown.1]
    exact forall_mem_concat hparser.users cleanUser_default
  refine Returns.ite (fun _ => returns_bind (fun _ => returns_pure { hparser with })) (fun _ => ?_)
  refine Returns.ite (fun _ => (returns_growArray _).bind (fun domains hgrown =>
    returns_pure { hparser with domains := ?_ })) (fun _ => ?_)
  · rw [hgrown.1]
    exact forall_mem_concat hparser.domains cleanDomain_default
  exact yields_throw _ _

theorem cleanTables_preserved : Preserved CleanTables where
  start := ⟨by simp, by simp, by simp⟩
  apply := cleanTables_applyValue
  grow := cleanTables_openTable

/-! ## Accepted users -/

/-- What the checks of one user guarantee. -/
structure AcceptedUser (user : FacetConfigUser) : Prop where
  clean : CleanUser user
  name : ∃ name, user.name = some name ∧ name ≠ []
  passwordHash : user.passwordHash ≠ none
  uid : user.uid ≠ none
  gid : user.gid ≠ none
  homePath : user.homePath ≠ none
  posixShell : ∀ shell, user.posixShell = some shell → shell ≠ []

theorem acceptedUser_of_validateUser {context name : List UInt8} (hclean : CleanUser user)
    (hstep : validateUser context user = .ok name) :
    AcceptedUser user := by
  simp only [validateUser, Passes.bind_eq_ok, required_eq_ok, reject_eq_ok] at hstep
  obtain ⟨found, hname, hash, hhash, admin, -, uid, huid, gid, hgid, home, hhome, -, hvalid, -, -,
    -, hshells, -⟩ := hstep
  refine ⟨hclean, ⟨found, hname, fun hempty => hvalid (.inl hempty)⟩, by simp [hhash],
    by simp [huid], by simp [hgid], by simp [hhome], ?_⟩
  intro shell hshell hempty
  exact hshells (.inr ⟨shell, hshell, by simp [hempty]⟩)

variable (hparse : facetConfigParse data = .ok config)
include hparse

/-- The rows of an accepted configuration are checked rows of clean tables. -/
theorem accepted_rows :
    ∃ filled checked, CleanTables filled
      ∧ checked.authenticationSources.length = filled.authenticationSources.length
      ∧ mapEach validateGlobalUser [] filled.users = .ok config.users ∧ config.users ≠ []
      ∧ mapEach (validateDomain checked) [] filled.domains = .ok config.domains := by
  obtain ⟨parser, after, htables, hvalid⟩ := facetConfigParse_ok hparse
  simp only [validateRequired, Passes.bind_eq_ok, reject_eq_ok] at hvalid
  obtain ⟨-, -, sinks, -, seats, -, sources, hsources, users, husers, -, hroot, -, -, domains,
    hdomains, -, -, providers, -, -, -, hresult⟩ := hvalid
  obtain rfl := Except.ok.inj hresult
  refine ⟨parser.config, _, cleanTables_preserved.returns_parseTables htables, ?_, husers, ?_,
    hdomains⟩
  · exact congrArg List.length (mapEach_eq hsources
      (fun _ _ _ hstep => (validateSource_ok hstep).1))
  · intro hempty
    exact hroot (by simp [show users = [] from hempty])

theorem accepted_users :
    config.users ≠ [] ∧ ∀ user ∈ config.users, AcceptedUser user := by
  obtain ⟨filled, checked, hclean, -, husers, hsome, -⟩ := accepted_rows hparse
  refine ⟨hsome, fun user huser => ?_⟩
  obtain ⟨before, original, hmem, hstep⟩ := mapEach_mem husers huser
  obtain ⟨rfl, -⟩ := validateGlobalUser_ok hstep
  simp only [validateGlobalUser, Passes.bind_eq_ok] at hstep
  obtain ⟨name, hname, -⟩ := hstep
  exact acceptedUser_of_validateUser (hclean.users _ hmem) hname

omit hparse in
/-- An accepted domain keeps the id of the domain as filled, and its users and source are
checked. -/
theorem validateDomain_checks {earlier : List FacetConfigDomain} {filled : FacetConfigDomain}
    (hstep : validateDomain config earlier filled = .ok domain) :
    domain.id ≠ none
      ∧ (∃ name, mapEach (validateDomainUser config.users name) [] (domainUsers filled)
        = .ok (domainUsers domain))
      ∧ validateDomainSource config filled = .ok domain.authenticationSourceIndex := by
  simp only [validateDomain, Passes.bind_eq_ok, required_eq_ok, reject_eq_ok] at hstep
  obtain ⟨id, hid, name, -, personality, -, manager, -, sinkUses, -, terminals, -, initrd, -, -, -,
    -, -, -, -, checked, hchecked, -, -, pairs, -, checkedSinks, -, -, -, -, -, -, -,
    checkedTerminals, -, index, hindex, hdomainResult⟩ := hstep
  obtain rfl := Except.ok.inj hdomainResult
  refine ⟨by rw [hid]; exact Option.some_ne_none id, ⟨name, ?_⟩, hindex⟩
  have hsame := mapEach_eq hchecked (fun _ _ _ hstep => (validateDomainUser_ok hstep).1)
  rw [hchecked]
  unfold domainUsers at hsame ⊢
  cases hgiven : filled.users with
  | none => simpa [hgiven] using hsame
  | some given => rfl

theorem accepted_domain_users :
    ∀ domain ∈ config.domains, ∀ user ∈ domainUsers domain, AcceptedUser user := by
  obtain ⟨filled, checked, hclean, -, -, -, hdomains⟩ := accepted_rows hparse
  intro domain hdomain user huser
  obtain ⟨before, original, hmem, hstep⟩ := mapEach_mem hdomains hdomain
  obtain ⟨-, ⟨name, husers⟩, -⟩ := validateDomain_checks hstep
  obtain ⟨earlier, row, hrow, hvalidate⟩ := mapEach_mem husers huser
  obtain ⟨rfl, -⟩ := validateDomainUser_ok hvalidate
  simp only [validateDomainUser, Passes.bind_eq_ok] at hvalidate
  obtain ⟨found, hfound, -⟩ := hvalidate
  exact acceptedUser_of_validateUser ((hclean.domains original hmem).users _ hrow) hfound

/-- Every user that may log in to a domain has passed the checks. -/
theorem accepted_table (hdomain : domain ∈ config.domains) :
    ∀ user ∈ config.users ++ domainUsers domain, AcceptedUser user :=
  List.forall_mem_append.mpr
    ⟨(accepted_users hparse).2, accepted_domain_users hparse domain hdomain⟩

end FacetOS.Config
