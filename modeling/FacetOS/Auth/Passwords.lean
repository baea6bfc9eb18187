import FacetOS.Auth.Sessions

/-!
# Comparing passwords

`authenticate` compares as many bytes of the computed hash with the stored one as the
stored one is long, whatever the length of the computed one is, and it hands the
password to `crypt` as a C string.  Here the comparison is followed byte by byte, and
ends without a result when it reads behind the end of a string.
-/

namespace FacetOS.Auth

open Rpc Config

/-! ## The comparison -/

/-- What the loop of `constant_time_equal` has gathered after so many rounds. -/
def gatherDifference (left right : List UInt8) : ℕ → Option UInt8
  | 0 => some 0
  | index + 1 => do
      let difference ← gatherDifference left right index
      let a ← left[index]?
      let b ← right[index]?
      return difference ||| (a ^^^ b)

/-- There is no result if a byte behind the end of an object is read. -/
def constantTimeEqual (left right : List UInt8) (size : ℕ) : Option Bool :=
  (gatherDifference left right size).map (· == 0)

variable {left right : List UInt8} {size : ℕ} {user : FacetConfigUser}

theorem gatherDifference_eq_some {difference : UInt8}
    (hgather : gatherDifference left right size = some difference) :
    size ≤ left.length ∧ size ≤ right.length
      ∧ (difference = 0 ↔ left.take size = right.take size) := by
  induction size generalizing difference with
  | zero =>
    obtain rfl := Option.some.inj hgather
    simp
  | succ index ih =>
    simp only [gatherDifference, Option.bind_eq_bind, Option.bind_eq_some_iff, Option.pure_def,
      Option.some.injEq] at hgather
    obtain ⟨earlier, hearlier, a, ha, b, hb, rfl⟩ := hgather
    obtain ⟨hleft, -⟩ := List.getElem?_eq_some_iff.mp ha
    obtain ⟨hright, -⟩ := List.getElem?_eq_some_iff.mp hb
    obtain ⟨-, -, hequal⟩ := ih hearlier
    refine ⟨hleft, hright, ?_⟩
    rw [UInt8.or_eq_zero_iff, UInt8.xor_eq_zero_iff, hequal, List.take_add_one, List.take_add_one,
      ha, hb]
    constructor
    · rintro ⟨hbegins, rfl⟩
      rw [hbegins]
    · intro hlonger
      obtain ⟨hbegins, hlast⟩ := List.append_inj' hlonger rfl
      exact ⟨hbegins, by simpa using hlast⟩

theorem exists_gatherDifference (hleft : size ≤ left.length) (hright : size ≤ right.length) :
    ∃ difference, gatherDifference left right size = some difference := by
  induction size with
  | zero => exact ⟨0, rfl⟩
  | succ index ih =>
    obtain ⟨earlier, hearlier⟩ := ih (by omega) (by omega)
    refine ⟨earlier ||| (left[index] ^^^ right[index]), ?_⟩
    simp only [gatherDifference, hearlier, List.getElem?_eq_getElem hleft,
      List.getElem?_eq_getElem hright, Option.bind_eq_bind, Option.bind_some, Option.pure_def]

/-- The comparison stays within both objects exactly if they are long enough, and then
tells whether they begin alike. -/
theorem constantTimeEqual_eq_some {same : Bool} :
    constantTimeEqual left right size = some same
      ↔ size ≤ left.length ∧ size ≤ right.length
        ∧ same = decide (left.take size = right.take size) := by
  constructor
  · intro hequal
    obtain ⟨difference, hgather, rfl⟩ := Option.map_eq_some_iff.mp hequal
    obtain ⟨hleft, hright, hzero⟩ := gatherDifference_eq_some hgather
    refine ⟨hleft, hright, ?_⟩
    rw [Bool.beq_eq_decide_eq]
    exact decide_eq_decide.mpr hzero
  · rintro ⟨hleft, hright, rfl⟩
    obtain ⟨difference, hgather⟩ := exists_gatherDifference hleft hright
    obtain ⟨-, -, hzero⟩ := gatherDifference_eq_some hgather
    rw [constantTimeEqual, hgather, Option.map_some, Bool.beq_eq_decide_eq]
    exact congrArg some (decide_eq_decide.mpr hzero)

theorem constantTimeEqual_eq_none (hshort : left.length < size) :
    constantTimeEqual left right size = none := by
  cases hequal : constantTimeEqual left right size with
  | none => rfl
  | some same =>
    obtain ⟨hleft, -⟩ := constantTimeEqual_eq_some.mp hequal
    exact absurd hshort (not_lt.mpr hleft)

/-! ## Authentication -/

/-- A C string with the zero byte that ends it. -/
def cObject (text : List UInt8) : List UInt8 := text ++ [0]

def strlen (text : List UInt8) : ℕ := (cString text).length

section Authentication

variable (crypt : List UInt8 → List UInt8 → Option (List UInt8))

/-- The check of the password; every accepted user has a hash. -/
def checkPassword (user : FacetConfigUser) (password : List UInt8) : Option Bool :=
  match user.passwordHash with
  | none => some false
  | some hash =>
    match crypt (cString password) (cString hash) with
    | none => some false
    | some actual => constantTimeEqual (cObject actual) (cObject hash) (strlen hash)

/-- The loop of `authenticate` from position `index` on. -/
def authenticateFrom (name password : List UInt8) :
    ℕ → List FacetConfigUser → Option (Except FacetError ℕ)
  | _, [] => some (.error .accessDenied)
  | index, user :: users =>
    let userName := user.name.getD []
    if strlen userName ≠ name.length then authenticateFrom name password (index + 1) users
    else do
      let same ← constantTimeEqual (cObject userName) name name.length
      if same then
        let equal ← checkPassword crypt user password
        return if equal then .ok index else .error .accessDenied
      else authenticateFrom name password (index + 1) users

/-- `authenticate` with every byte it compares; there is no result if one of them lies
behind the end of its string. -/
def authenticateReading (authority : AuthAuthority) (name password : List UInt8) :
    Option (Except FacetError ℕ) :=
  if 4096 < password.length then some (.error .invalidArgument)
  else authenticateFrom crypt name password 0 authority.users

theorem strlen_of_clean {text : List UInt8} (htext : 0 ∉ text) : strlen text = text.length := by
  rw [strlen, cString_eq_self htext]

variable {crypt}

/-- The stored hash is found in full at the start of the computed one, or the comparison
runs behind the end of the computed one. -/
theorem checkPassword_eq {password hash actual : List UInt8}
    (hhash : user.passwordHash = some hash) (hclean : 0 ∉ hash)
    (hactual : crypt (cString password) hash = some actual) :
    checkPassword crypt user password
      = if hash.length ≤ actual.length + 1 then some (decide (hash <+: actual)) else none := by
  simp only [checkPassword, hhash, cString_eq_self hclean, hactual, strlen_of_clean hclean]
  have hstored : (cObject hash).take hash.length = hash := List.take_left
  by_cases hfits : hash.length ≤ actual.length + 1
  · rw [if_pos hfits, constantTimeEqual_eq_some]
    refine ⟨by simpa [cObject] using hfits, by simp [cObject], decide_eq_decide.mpr ?_⟩
    rw [hstored, eq_comm, ← List.prefix_iff_eq_take]
    constructor
    · exact fun hbegins => hbegins.trans (List.prefix_append _ _)
    intro hbegins
    -- the zero byte behind the computed hash is not part of the stored one
    cases List.prefix_concat_iff.mp hbegins with
    | inl hwhole =>
      rw [hwhole] at hclean
      simp at hclean
    | inr hwithin => exact hwithin
  · rw [if_neg hfits]
    apply constantTimeEqual_eq_none
    simpa [cObject] using hfits

theorem checkPassword_unhashed {password hash : List UInt8} (hhash : user.passwordHash = some hash)
    (hclean : 0 ∉ hash) (hactual : crypt (cString password) hash = none) :
    checkPassword crypt user password = some false := by
  simp only [checkPassword, hhash, cString_eq_self hclean, hactual]

/-- The names are told apart without reading too far, and the first user of the name
decides. -/
theorem authenticateFrom_eq {users : List FacetConfigUser} (name password : List UInt8)
    (hnames : ∀ user ∈ users, ∃ given, user.name = some given ∧ 0 ∉ given) (first : ℕ) :
    authenticateFrom crypt name password first users
      = match users.findIdx? fun user => user.name = some name with
        | none => some (.error .accessDenied)
        | some index => (checkPassword crypt (users.getD index default) password).map
            (fun equal => if equal then .ok (first + index) else .error .accessDenied) := by
  induction users generalizing first with
  | nil => rfl
  | cons user users ih =>
    obtain ⟨given, hgiven, hclean⟩ := hnames user List.mem_cons_self
    have hnext := ih (fun other hother => hnames other (List.mem_cons_of_mem _ hother)) (first + 1)
    have hskip : given ≠ name → authenticateFrom crypt name password (first + 1) users
        = match (user :: users).findIdx? fun user => user.name = some name with
          | none => some (.error .accessDenied)
          | some index => (checkPassword crypt ((user :: users).getD index default) password).map
              (fun equal => if equal then .ok (first + index) else .error .accessDenied) := by
      intro hother
      rw [hnext, List.findIdx?_cons, if_neg (by simpa [hgiven] using hother)]
      cases users.findIdx? fun user => user.name = some name with
      | none => rfl
      | some index => simp [Nat.add_comm, Nat.add_left_comm]
    simp only [authenticateFrom, hgiven, Option.getD_some, strlen_of_clean hclean]
    by_cases hlength : given.length = name.length
    · have hsame : constantTimeEqual (cObject given) name name.length
          = some (decide (given = name)) := by
        rw [constantTimeEqual_eq_some]
        refine ⟨by simp [cObject, hlength], le_rfl, ?_⟩
        rw [← hlength, cObject, List.take_left, hlength, List.take_length]
      rw [if_neg (not_not.mpr hlength), hsame, Option.bind_eq_bind, Option.bind_some]
      by_cases hname : given = name
      · rw [if_pos (by simpa using hname), List.findIdx?_cons, if_pos (by simp [hgiven, hname])]
        simp only [List.getD_cons_zero, Nat.add_zero]
        cases checkPassword crypt user password <;> rfl
      · rw [if_neg (by simpa using hname), hskip hname]
    · rw [if_pos hlength]
      exact hskip (fun hname => hlength (congrArg List.length hname))

/-! ## The right password -/

/-- The password of a user of that name, whose hash is computed in full. -/
def RightPassword (crypt : List UInt8 → List UInt8 → Option (List UInt8))
    (authority : AuthAuthority) (name password : List UInt8) : Prop :=
  ∃ user ∈ authority.users, user.name = some name ∧ 0 ∉ password
    ∧ ∃ hash, user.passwordHash = some hash ∧ crypt password hash = some hash

/-- Authentication reads no byte too far and succeeds exactly with the right password. -/
def AuthenticatesExactly (crypt : List UInt8 → List UInt8 → Option (List UInt8))
    (authority : AuthAuthority) (name password : List UInt8) : Prop :=
  ∃ result, authenticateReading crypt authority name password = some result
    ∧ ((∃ position, result = .ok position) ↔ RightPassword crypt authority name password)

/-- For the users of that name, what `crypt` makes of the password up to its first zero
byte is not much shorter than the stored hash, and begins with it only if it is the
stored hash and the password has no zero byte. -/
def PlainlyComparable (crypt : List UInt8 → List UInt8 → Option (List UInt8))
    (authority : AuthAuthority) (name password : List UInt8) : Prop :=
  ∀ user ∈ authority.users, user.name = some name → ∀ hash, user.passwordHash = some hash →
    ∀ actual, crypt (cString password) hash = some actual →
      hash.length ≤ actual.length + 1 ∧ (hash <+: actual → 0 ∉ password ∧ actual = hash)

section Table

variable {authority : AuthAuthority} {name password : List UInt8}
  (haccepted : ∀ user ∈ authority.users, AcceptedUser user)

include haccepted

theorem authenticateReading_eq (hpassword : password.length ≤ 4096) :
    authenticateReading crypt authority name password
      = match authority.users.findIdx? fun user => user.name = some name with
        | none => some (.error .accessDenied)
        | some index => (checkPassword crypt (authority.users.getD index default) password).map
            (fun equal => if equal then .ok index else .error .accessDenied) := by
  rw [authenticateReading, if_neg (not_lt.mpr hpassword), authenticateFrom_eq]
  · simp only [Nat.zero_add]
  · intro user huser
    obtain ⟨given, hgiven, -⟩ := (haccepted user huser).name
    exact ⟨given, hgiven, (haccepted user huser).clean.name given hgiven⟩

/-- As long as no byte behind an end is read, the bytes agree with the model of the
comparison that looks at whole strings. -/
theorem authenticate_of_reading {result : Except FacetError ℕ}
    (hreading : authenticateReading crypt authority name password = some result) :
    authenticate crypt authority name password = result := by
  by_cases hpassword : 4096 < password.length
  · rw [authenticateReading, if_pos hpassword] at hreading
    rw [authenticate, if_pos hpassword]
    exact Option.some.inj hreading
  · rw [authenticateReading_eq haccepted (not_lt.mp hpassword)] at hreading
    rw [authenticate, if_neg hpassword]
    cases hindex : authority.users.findIdx? fun user => user.name = some name with
    | none =>
      rw [hindex] at hreading
      exact Option.some.inj hreading
    | some index =>
      rw [hindex] at hreading
      obtain ⟨equal, hequal, rfl⟩ := Option.map_eq_some_iff.mp hreading
      obtain ⟨hbound, -⟩ := List.findIdx?_eq_some_iff_getElem.mp hindex
      have huser : authority.users.getD index default ∈ authority.users := by
        rw [List.getD_eq_getElem _ _ hbound]
        exact List.getElem_mem hbound
      obtain ⟨hash, hhash⟩ := Option.ne_none_iff_exists'.mp (haccepted _ huser).passwordHash
      have hclean := (haccepted _ huser).clean.passwordHash hash hhash
      have hmatches : passwordMatches crypt (authority.users.getD index default) password
          = equal := by
        simp only [passwordMatches, hhash]
        cases hactual : crypt (cString password) hash with
        | none =>
          rw [checkPassword_unhashed hhash hclean hactual] at hequal
          exact Option.some.inj hequal
        | some actual =>
          rw [checkPassword_eq hhash hclean hactual] at hequal
          split at hequal
          · exact Option.some.inj hequal
          · contradiction
      simp only [hmatches]

/-- The only user of a name decides. -/
theorem authenticatesExactly_iff_of_user
    (hunique : (authority.users.map FacetConfigUser.name).Nodup) (huser : user ∈ authority.users)
    (hname : user.name = some name) (hpassword : password.length ≤ 4096) :
    AuthenticatesExactly crypt authority name password
      ↔ PlainlyComparable crypt authority name password := by
  obtain ⟨hash, hhash⟩ := Option.ne_none_iff_exists'.mp (haccepted user huser).passwordHash
  have hclean := (haccepted user huser).clean.passwordHash hash hhash
  have honly : ∀ other ∈ authority.users, other.name = some name → other = user :=
    fun other hother hsame => List.inj_on_of_nodup_map hunique hother huser (hsame.trans hname.symm)
  have hright : RightPassword crypt authority name password
      ↔ 0 ∉ password ∧ crypt (cString password) hash = some hash := by
    constructor
    · rintro ⟨other, hother, hsame, hzero, given, hgiven, hcrypt⟩
      rw [honly other hother hsame, hhash] at hgiven
      rw [Option.some.inj hgiven, cString_eq_self hzero]
      exact ⟨hzero, hcrypt⟩
    · rintro ⟨hzero, hcrypt⟩
      rw [cString_eq_self hzero] at hcrypt
      exact ⟨user, huser, hname, hzero, hash, hhash, hcrypt⟩
  have hcomparable : PlainlyComparable crypt authority name password
      ↔ ∀ actual, crypt (cString password) hash = some actual →
        hash.length ≤ actual.length + 1 ∧ (hash <+: actual → 0 ∉ password ∧ actual = hash) := by
    constructor
    · exact fun hall => hall user huser hname hash hhash
    · intro hall other hother hsame given hgiven
      rw [honly other hother hsame, hhash] at hgiven
      rw [← Option.some.inj hgiven]
      exact hall
  obtain ⟨index, hindex, hfound⟩ : ∃ index,
      (authority.users.findIdx? fun user => user.name = some name) = some index
        ∧ authority.users.getD index default = user := by
    cases hindex : authority.users.findIdx? fun user => user.name = some name with
    | none =>
      rw [List.findIdx?_eq_none_iff] at hindex
      have hother := hindex user huser
      simp [hname] at hother
    | some index =>
      obtain ⟨hbound, hsame, -⟩ := List.findIdx?_eq_some_iff_getElem.mp hindex
      refine ⟨index, rfl, ?_⟩
      rw [List.getD_eq_getElem _ _ hbound]
      exact honly _ (List.getElem_mem hbound) (by simpa using hsame)
  rw [AuthenticatesExactly, authenticateReading_eq haccepted hpassword, hindex, hright, hcomparable]
  simp only [hfound]
  cases hactual : crypt (cString password) hash with
  | none => simp [checkPassword_unhashed hhash hclean hactual]
  | some actual =>
    rw [checkPassword_eq hhash hclean hactual]
    by_cases hfits : hash.length ≤ actual.length + 1
    · simp only [hfits, Option.some.injEq, true_and, forall_eq']
      by_cases hbegins : hash <+: actual
      · simp [hbegins]
      · have hother : actual ≠ hash := fun hsame => hbegins (hsame ▸ List.prefix_rfl)
        simp [hbegins, hother]
    · simp [hfits]

end Table

/-- Authentication accepts exactly the right password, and reads no byte too far, exactly
where what `crypt` returns can be compared plainly. -/
theorem authenticates_exactly_iff (crypt : List UInt8 → List UInt8 → Option (List UInt8))
    (data : List UInt8) (config : FacetSystemConfig) (hparse : facetConfigParse data = .ok config)
    (domain : FacetConfigDomain) (hdomain : domain ∈ config.domains) (name password : List UInt8)
    (hpassword : password.length ≤ 4096) :
    AuthenticatesExactly crypt (initializeAuthority config domain) name password
      ↔ PlainlyComparable crypt (initializeAuthority config domain) name password := by
  have haccepted : ∀ user ∈ (initializeAuthority config domain).users, AcceptedUser user := by
    rw [users_initializeAuthority]
    exact accepted_table hparse hdomain
  by_cases hexists : ∃ user ∈ (initializeAuthority config domain).users, user.name = some name
  · obtain ⟨user, huser, hname⟩ := hexists
    refine authenticatesExactly_iff_of_user haccepted ?_ huser hname hpassword
    rw [users_initializeAuthority]
    exact ((accepted_config_integrity hparse).1.domains domain hdomain).users
  · have hnobody : ((initializeAuthority config domain).users.findIdx?
        fun user => user.name = some name) = none := by
      rw [List.findIdx?_eq_none_iff]
      intro user huser
      simpa using fun hname => hexists ⟨user, huser, hname⟩
    constructor
    · intro _ user huser hname
      exact absurd ⟨user, huser, hname⟩ hexists
    intro _
    refine ⟨.error .accessDenied, by rw [authenticateReading_eq haccepted hpassword, hnobody], ?_⟩
    constructor
    · rintro ⟨position, hposition⟩
      cases hposition
    · rintro ⟨user, huser, hname, -⟩
      exact absurd ⟨user, huser, hname⟩ hexists

/-- The authority of the first of the two domains. -/
def twoDomainsAuthority : AuthAuthority :=
  initializeAuthority twoDomainsConfig (twoDomainsConfig.domains.getD 0 default)

theorem authenticates_exactly_twoDomains :
    AuthenticatesExactly (fun _ hash => some hash) twoDomainsAuthority (ascii "root")
      (ascii "a") := by
  refine (authenticates_exactly_iff (fun _ hash => some hash) twoDomains twoDomainsConfig
    twoDomains_accepted _ List.mem_cons_self (ascii "root") (ascii "a") (by decide)).mpr ?_
  intro user huser hname hash hhash actual hactual
  obtain rfl := Option.some.inj hactual
  exact ⟨Nat.le_succ _, fun _ => ⟨by decide, rfl⟩⟩

theorem authenticate_of_reading_twoDomains :
    authenticate (fun _ hash => some hash) twoDomainsAuthority (ascii "root") (ascii "a")
      = .ok 0 := by
  refine authenticate_of_reading ?_ (by decide +kernel)
  rw [twoDomainsAuthority, users_initializeAuthority]
  exact accepted_table twoDomains_accepted List.mem_cons_self

/-- A computed hash that goes on behind the stored one is accepted, and so is a password
that goes on behind a zero byte; a computed hash that is too short is read behind its
end. -/
theorem authenticates_wrong_password :
    facetConfigParse twoDomains = .ok twoDomainsConfig
      ∧ (authenticateReading (fun _ hash => some (hash ++ [120])) twoDomainsAuthority
            (ascii "root") (ascii "a") = some (.ok 0)
        ∧ ¬RightPassword (fun _ hash => some (hash ++ [120])) twoDomainsAuthority
            (ascii "root") (ascii "a"))
      ∧ (authenticateReading (fun _ hash => some hash) twoDomainsAuthority
            (ascii "root") [97, 0, 98] = some (.ok 0)
        ∧ ¬RightPassword (fun _ hash => some hash) twoDomainsAuthority
            (ascii "root") [97, 0, 98])
      ∧ authenticateReading (fun _ _ => some (ascii "*0")) twoDomainsAuthority
          (ascii "root") (ascii "a") = none := by
  refine ⟨twoDomains_accepted, ⟨by decide +kernel, ?_⟩, ⟨by decide +kernel, ?_⟩, by decide +kernel⟩
  · rintro ⟨user, huser, hname, hzero, hash, hhash, hcrypt⟩
    simpa using Option.some.inj hcrypt
  · rintro ⟨user, huser, hname, hzero, -⟩
    exact absurd hzero (by decide)

end Authentication

end FacetOS.Auth
