import FacetOS.Process.Launch

/-!
# Changing the identity of a process

`posix_set_credentials` changes the ids first, then one variable after the other,
and the flag of the view last.  Whatever fails in between leaves what is changed
before it.
-/

namespace FacetOS.Process

open Config Posix
open FileView (Credentials)

/-! ## Variables -/

/-- The entries for a key; reading a variable finds the first of them. -/
def entriesFor (entries : List (List UInt8)) (key : List UInt8) : List (List UInt8) :=
  entries.filter (fun entry => (key ++ [equalsSign]).isPrefixOf entry)

/-- The variable has this value. -/
def HasVariable (entries : List (List UInt8)) (key value : List UInt8) : Prop :=
  (entriesFor entries key).head? = some (key ++ equalsSign :: value)

section Variables

variable {entries replaced : List (List UInt8)} {key value : List UInt8}

/-- An entry is for one key only. -/
theorem key_unique {other entry : List UInt8} (hkey : equalsSign ∉ key)
    (hother : equalsSign ∉ other) (hentry : (key ++ [equalsSign]) <+: entry)
    (hsame : (other ++ [equalsSign]) <+: entry) : key = other := by
  have hbegins : ∀ name : List UInt8, equalsSign ∉ name → (name ++ [equalsSign]) <+: entry →
      entry.takeWhile (fun byte => byte ≠ equalsSign) = name := by
    rintro name hname ⟨rest, rfl⟩
    have hall : ∀ byte ∈ name, decide (byte ≠ equalsSign) = true := by
      intro byte hbyte
      rw [decide_eq_true_eq]
      rintro rfl
      exact hname hbyte
    rw [List.append_assoc, List.takeWhile_append_of_pos hall]
    simp
  rw [← hbegins key hkey hentry, hbegins other hother hsame]

/-- Setting the first element that fits cuts the list there. -/
theorem set_findIdx {α : Type} {fits : α → Bool} {items : List α} {index : ℕ}
    (hindex : items.findIdx? fits = some index) (item : α) :
    ∃ before old after, items = before ++ old :: after ∧ before.filter fits = [] ∧
      fits old = true ∧ items.set index item = before ++ item :: after := by
  induction items generalizing index with
  | nil => cases hindex
  | cons first rest ih =>
    rw [List.findIdx?_cons] at hindex
    split at hindex
    · rename_i hfits
      obtain rfl := Option.some.inj hindex
      exact ⟨[], first, rest, rfl, rfl, hfits, rfl⟩
    · rename_i hfits
      obtain ⟨inner, hinner, rfl⟩ := Option.map_eq_some_iff.mp hindex
      obtain ⟨before, old, after, hrest, hnone, hold, hset⟩ := ih hinner
      refine ⟨first :: before, old, after, by rw [hrest, List.cons_append], ?_, hold, ?_⟩
      · rw [List.filter_cons_of_neg (by simpa using hfits), hnone]
      · rw [List.set_cons_succ, hset, List.cons_append]

theorem entriesFor_eq_nil
    (hindex : entries.findIdx? (fun entry => (key ++ [equalsSign]).isPrefixOf entry) = none) :
    entriesFor entries key = [] := by
  rw [entriesFor, List.filter_eq_nil_iff]
  intro entry hentry
  rw [List.findIdx?_eq_none_iff.mp hindex entry hentry]
  exact Bool.false_ne_true

theorem replaceSysvEnvironment_eq_some
    (hreplaced : replaceSysvEnvironment entries key value = some replaced) :
    HasVariable replaced key value ∧
      replaced.length = entries.length + (if entriesFor entries key = [] then 1 else 0) ∧
      ∀ other, equalsSign ∉ key → equalsSign ∉ other → key ≠ other →
        entriesFor replaced other = entriesFor entries other := by
  have hnew : (key ++ [equalsSign]).isPrefixOf (key ++ equalsSign :: value) = true :=
    List.isPrefixOf_iff_prefix.mpr ⟨value, by simp⟩
  have hdrop : ∀ other entry, equalsSign ∉ key → equalsSign ∉ other → key ≠ other →
      (key ++ [equalsSign]).isPrefixOf entry = true →
      ¬ (other ++ [equalsSign]).isPrefixOf entry = true := by
    intro other entry hkey hother hne hentry hsame
    exact hne (key_unique hkey hother (List.isPrefixOf_iff_prefix.mp hentry)
      (List.isPrefixOf_iff_prefix.mp hsame))
  unfold replaceSysvEnvironment at hreplaced
  split at hreplaced
  · rename_i index hindex
    obtain rfl := Option.some.inj hreplaced
    obtain ⟨before, old, after, rfl, hnone, hold, hset⟩ :=
      set_findIdx hindex (key ++ equalsSign :: value)
    rw [hset]
    refine ⟨?_, ?_, fun other hkey hother hne => ?_⟩
    · simp [HasVariable, entriesFor, hnone, hnew]
    · simp [entriesFor, hold]
    · simp only [entriesFor, List.filter_append]
      rw [List.filter_cons_of_neg (hdrop other _ hkey hother hne hnew),
        List.filter_cons_of_neg (hdrop other _ hkey hother hne hold)]
  · rename_i hindex
    have hnone := entriesFor_eq_nil hindex
    unfold addSysvEnvironment at hreplaced
    split at hreplaced
    · cases hreplaced
    obtain rfl := Option.some.inj hreplaced
    refine ⟨?_, by simp [hnone], fun other hkey hother hne => ?_⟩
    · rw [HasVariable, entriesFor, List.filter_append, ← entriesFor, hnone]
      simp [hnew]
    · rw [entriesFor, List.filter_append,
        List.filter_cons_of_neg (hdrop other _ hkey hother hne hnew)]
      simp [entriesFor]

/-- Only a new entry can fail to find room. -/
theorem replaceSysvEnvironment_isSome_iff (hbound : entries.length ≤ sysvEnvironmentMax) :
    (replaceSysvEnvironment entries key value).isSome ↔
      entries.length + (if entriesFor entries key = [] then 1 else 0) ≤ sysvEnvironmentMax := by
  unfold replaceSysvEnvironment addSysvEnvironment
  cases hindex : entries.findIdx? (fun entry => (key ++ [equalsSign]).isPrefixOf entry) with
  | some index =>
    obtain ⟨before, old, after, rfl, -, hold, -⟩ := set_findIdx hindex []
    simp only [Option.isSome_some, true_iff]
    simpa [entriesFor, hold] using hbound
  | none =>
    rw [if_pos (entriesFor_eq_nil hindex)]
    by_cases hfull : entries.length = sysvEnvironmentMax <;> simp [hfull]
    omega

end Variables

variable {entries : List (List UInt8)}

section Sequences

variable {requested : List (List UInt8 × Option (List UInt8))}

/-- Those of the variables that have no entry yet. -/
def absent (entries : List (List UInt8))
    (requested : List (List UInt8 × Option (List UInt8))) : ℕ :=
  requested.countP (fun request => entriesFor entries request.1 = [])

theorem replaceVariables_done
    (hkeys : (requested.map Prod.fst).Nodup)
    (hplain : ∀ request ∈ requested, equalsSign ∉ request.1)
    (hdone : (replaceVariables requested entries).1 = true) :
    (∀ key value, (key, value) ∈ requested →
      ∃ text, value = some text ∧ HasVariable (replaceVariables requested entries).2 key text) ∧
      ∀ key, equalsSign ∉ key → key ∉ requested.map Prod.fst →
        entriesFor (replaceVariables requested entries).2 key = entriesFor entries key := by
  induction requested generalizing entries with
  | nil => simp [replaceVariables]
  | cons request rest ih =>
    obtain ⟨name, wanted⟩ := request
    rw [List.map_cons, List.nodup_cons] at hkeys
    rw [replaceVariables] at hdone ⊢
    cases hchanged : wanted.bind (replaceSysvEnvironment entries name) with
    | none => simp [hchanged] at hdone
    | some changed =>
      simp only [hchanged] at hdone ⊢
      obtain ⟨text, rfl, hreplaced⟩ := Option.bind_eq_some_iff.mp hchanged
      obtain ⟨hset, -, hothers⟩ := replaceSysvEnvironment_eq_some hreplaced
      have hname : equalsSign ∉ name := hplain (name, some text) List.mem_cons_self
      obtain ⟨hvalues, hkept⟩ :=
        ih hkeys.2 (fun request hrequest => hplain request (List.mem_cons_of_mem _ hrequest)) hdone
      refine ⟨fun key value hmem => ?_, fun key hkey hnot => ?_⟩
      · cases List.mem_cons.mp hmem with
        | inl hfirst =>
          obtain ⟨rfl, rfl⟩ := Prod.mk.inj hfirst
          refine ⟨text, rfl, ?_⟩
          rw [HasVariable, hkept key hname hkeys.1]
          exact hset
        | inr hlater => exact hvalues key value hlater
      · rw [List.map_cons, List.mem_cons, not_or] at hnot
        rw [hkept key hkey hnot.2]
        exact hothers key hname hkey (fun heq => hnot.1 heq.symm)

theorem replaceVariables_iff
    (hkeys : (requested.map Prod.fst).Nodup)
    (hplain : ∀ request ∈ requested, equalsSign ∉ request.1)
    (hbound : entries.length ≤ sysvEnvironmentMax) :
    (replaceVariables requested entries).1 = true ↔
      (∀ request ∈ requested, request.2 ≠ none) ∧
        entries.length + absent entries requested ≤ sysvEnvironmentMax := by
  induction requested generalizing entries with
  | nil => simpa [replaceVariables, absent] using hbound
  | cons request rest ih =>
    obtain ⟨name, wanted⟩ := request
    rw [List.map_cons, List.nodup_cons] at hkeys
    have hcount : absent entries ((name, wanted) :: rest)
        = absent entries rest + (if entriesFor entries name = [] then 1 else 0) := by
      simp [absent, List.countP_cons]
    rw [replaceVariables, List.forall_mem_cons, hcount]
    cases wanted with
    | none => simp
    | some text =>
      have hroom := @replaceSysvEnvironment_isSome_iff entries name text hbound
      rw [Option.bind_some]
      cases hreplaced : replaceSysvEnvironment entries name text with
      | none =>
        rw [hreplaced] at hroom
        simp only [Option.isSome_none, Bool.false_eq_true, false_iff] at hroom
        simp only [Bool.false_eq_true, false_iff]
        omega
      | some changed =>
        rw [hreplaced] at hroom
        simp only [Option.isSome_some, true_iff] at hroom
        obtain ⟨-, hlength, hothers⟩ := replaceSysvEnvironment_eq_some hreplaced
        have hname : equalsSign ∉ name := hplain (name, some text) List.mem_cons_self
        have hsame : absent changed rest = absent entries rest := by
          apply List.countP_congr
          intro request hrequest
          have hlisted : request.1 ∈ rest.map Prod.fst := List.mem_map.mpr ⟨_, hrequest, rfl⟩
          have hne : name ≠ request.1 := fun heq => hkeys.1 (heq ▸ hlisted)
          rw [hothers request.1 hname (hplain request (List.mem_cons_of_mem _ hrequest))
            hne]
        rw [ih hkeys.2 (fun request hrequest => hplain request (List.mem_cons_of_mem _ hrequest))
          (by omega), hsame, hlength]
        simp only [ne_eq, reduceCtorEq, not_false_eq_true, true_and]
        refine and_congr_right (fun _ => ?_)
        omega

end Sequences

/-! ## All or nothing -/

section Credentials

variable {Handle : Type} (environment : ProcessEnvironment Handle)

/-- The credentials that the call asks for. -/
def requestedCredentials (uid gid : UInt32) : Credentials :=
  changedCredentials environment.credentials uid gid (uid != 0xffffffff) (gid != 0xffffffff)

/-- The flag of the view, if there is a view. -/
def viewAdmin : Option Bool :=
  environment.posixView.map PosixView.admin

/-- A failed call changes neither the credentials, nor a variable of the user, nor the
flag of the view.  After a successful one both flags tell whether the uid is 0, and the
variables are those of the configured user, if there is one. -/
structure AllOrNothing (users : List FacetConfigUser) (environment : ProcessEnvironment Handle)
    (uid gid : UInt32) : Prop where
  failed : ∀ failure after,
    posixSetCredentials users environment uid gid = (.error failure, after) →
    after.credentials = environment.credentials ∧ viewAdmin after = viewAdmin environment ∧
      ∀ key ∈ [ascii "USER", ascii "HOME", ascii "SHELL", ascii "PWD"],
        entriesFor after.sysvEnvironment key = entriesFor environment.sysvEnvironment key
  done : ∀ after, posixSetCredentials users environment uid gid = (.ok (), after) →
    after.credentials = requestedCredentials environment uid gid ∧
      viewAdmin after = some (after.credentials.uid == 0) ∧
      after.credentials.admin = (after.credentials.uid == 0) ∧
      ∀ user, configuredUser users after.credentials.uid after.credentials.gid = some user →
        ∀ key value, (key, value) ∈ userVariables user →
          ∃ text, value = some text ∧ HasVariable after.sysvEnvironment key text

/-- The view turns the call away. -/
def TurnedAway (uid gid : UInt32) : Prop :=
  ∀ view, environment.posixView = some view →
    (uid = 0xffffffff ∧ gid = 0xffffffff) ∨ view.admin = false ∨ view.controlled = false

/-- The call sets the uid or the uid is 0 already; and the configured user of the new
ids, if there is one, has a shell, and there is room for those variables that the
process does not have yet. -/
structure Settles (users : List FacetConfigUser) (environment : ProcessEnvironment Handle)
    (uid gid : UInt32) : Prop where
  flagged : uid ≠ 0xffffffff ∨ environment.credentials.uid = 0
  replaceable : ∀ user, configuredUser users (requestedCredentials environment uid gid).uid
      (requestedCredentials environment uid gid).gid = some user →
    user.posixShell ≠ none ∧ environment.sysvEnvironment.length
      + absent environment.sysvEnvironment (userVariables user) ≤ sysvEnvironmentMax

theorem nodup_userVariables (user : FacetConfigUser) :
    ((userVariables user).map Prod.fst).Nodup := by
  simp only [userVariables, List.map_cons, List.map_nil]
  decide

theorem plain_userVariables (user : FacetConfigUser) :
    ∀ request ∈ userVariables user, equalsSign ∉ request.1 := by
  intro request hrequest
  have hkey : request.1 ∈ (userVariables user).map Prod.fst := List.mem_map_of_mem hrequest
  simp only [userVariables, List.map_cons, List.map_nil] at hkey
  revert hkey
  generalize request.1 = key
  revert key
  decide

variable {users : List FacetConfigUser} {environment : ProcessEnvironment Handle}
  {uid gid : UInt32}

theorem posixSetCredentials_turnedAway (hturned : TurnedAway environment uid gid) :
    posixSetCredentials users environment uid gid = (.error .perm, environment) := by
  unfold posixSetCredentials
  cases hview : environment.posixView with
  | none => rfl
  | some view =>
    dsimp only
    rw [if_pos]
    simpa using hturned view hview

/-- The variables after the change to these credentials, and whether all are replaced. -/
def variablesFor (users : List FacetConfigUser) (credentials : Credentials)
    (entries : List (List UInt8)) : Bool × List (List UInt8) :=
  match configuredUser users credentials.uid credentials.gid with
  | none => (true, entries)
  | some user => replaceVariables (userVariables user) entries

/-- A call that is not turned away changes the credentials; whether it succeeds depends
on the variables. -/
theorem posixSetCredentials_eq {view : PosixView} (hview : environment.posixView = some view)
    (hadmitted : ¬ ((uid = 0xffffffff ∧ gid = 0xffffffff) ∨ view.admin = false
      ∨ view.controlled = false)) :
    posixSetCredentials users environment uid gid
      = let new := requestedCredentials environment uid gid
        let sysv := variablesFor users new environment.sysvEnvironment
        let changed := { environment with credentials := new, sysvEnvironment := sysv.2 }
        if sysv.1 then
          (.ok (), if uid != 0xffffffff then
            { changed with posixView := some { view with admin := uid == 0 } } else changed)
        else (.error .perm, changed) := by
  have hset : ¬ ((uid != 0xffffffff) = false ∧ (gid != 0xffffffff) = false) := by
    simp only [bne_eq_false_iff_eq]
    exact fun hboth => hadmitted (.inl hboth)
  unfold posixSetCredentials
  split
  · rename_i hnone
    cases hview.symm.trans hnone
  rename_i found hfound
  obtain rfl := Option.some.inj (hview.symm.trans hfound)
  rw [if_neg (by simpa using hadmitted), dominit0ProcessEnvironmentSetCredentials, if_neg hset]
  unfold requestedCredentials variablesFor
  generalize changedCredentials environment.credentials uid gid (uid != 0xffffffff)
    (gid != 0xffffffff) = new
  dsimp only
  cases configuredUser users new.uid new.gid with
  | none => rfl
  | some user =>
    dsimp only
    cases (replaceVariables (userVariables user) environment.sysvEnvironment).1 <;> rfl

theorem variablesFor_iff {config : FacetSystemConfig} {data : List UInt8}
    (hparse : facetConfigParse data = .ok config)
    (hbound : entries.length ≤ sysvEnvironmentMax) (credentials : Credentials) :
    (variablesFor config.users credentials entries).1 = true ↔
      ∀ user, configuredUser config.users credentials.uid credentials.gid = some user →
        user.posixShell ≠ none
          ∧ entries.length + absent entries (userVariables user) ≤ sysvEnvironmentMax := by
  unfold variablesFor
  cases huser : configuredUser config.users credentials.uid credentials.gid with
  | none => simp
  | some user =>
    have haccepted := (accepted_users hparse).2 user (List.mem_of_find?_eq_some huser)
    obtain ⟨name, hname, -⟩ := haccepted.name
    simp only [Option.some.injEq, forall_eq']
    rw [replaceVariables_iff (nodup_userVariables user) (plain_userVariables user) hbound]
    simp [userVariables, hname, haccepted.homePath]

theorem variablesFor_done {credentials : Credentials} {sysv : List (List UInt8)}
    (hsysv : variablesFor users credentials entries = (true, sysv)) :
    ∀ user, configuredUser users credentials.uid credentials.gid = some user →
      ∀ key value, (key, value) ∈ userVariables user →
        ∃ text, value = some text ∧ HasVariable sysv key text := by
  intro user huser
  simp only [variablesFor, huser] at hsysv
  have hdone := replaceVariables_done (nodup_userVariables user) (plain_userVariables user)
    (congrArg Prod.fst hsysv)
  rw [hsysv] at hdone
  exact hdone.1

/-- With an accepted configuration the call is all or nothing if it is turned away or
settles; and a call that asks for other credentials is so only then. -/
theorem set_credentials_all_or_nothing {data : List UInt8} {config : FacetSystemConfig}
    (hparse : facetConfigParse data = .ok config) (environment : ProcessEnvironment Handle)
    (hbound : environment.sysvEnvironment.length ≤ sysvEnvironmentMax) (uid gid : UInt32) :
    (TurnedAway environment uid gid ∨ Settles config.users environment uid gid →
      AllOrNothing config.users environment uid gid) ∧
    (requestedCredentials environment uid gid ≠ environment.credentials →
      AllOrNothing config.users environment uid gid →
      TurnedAway environment uid gid ∨ Settles config.users environment uid gid) := by
  by_cases hturned : TurnedAway environment uid gid
  · refine ⟨fun _ => ⟨fun failure after hrun => ?_, fun after hrun => ?_⟩, fun _ _ => .inl hturned⟩
    · cases (posixSetCredentials_turnedAway hturned).symm.trans hrun
      exact ⟨rfl, rfl, fun _ _ => rfl⟩
    · cases (posixSetCredentials_turnedAway hturned).symm.trans hrun
  · obtain ⟨view, hview, hadmitted⟩ : ∃ view, environment.posixView = some view ∧
        ¬ ((uid = 0xffffffff ∧ gid = 0xffffffff) ∨ view.admin = false
          ∨ view.controlled = false) := by
      simpa only [TurnedAway, not_forall, exists_prop] using hturned
    have hrun := @posixSetCredentials_eq Handle config.users _ uid gid view hview hadmitted
    have hreplaced := variablesFor_iff hparse hbound (requestedCredentials environment uid gid)
    rw [or_iff_right hturned]
    dsimp only at hrun
    cases hsysv : variablesFor config.users (requestedCredentials environment uid gid)
        environment.sysvEnvironment with
    | mk replaced sysv =>
      rw [hsysv] at hrun hreplaced
      cases replaced with
      | false =>
        refine ⟨fun hsettles => ?_, fun hother hall => ?_⟩
        · exact absurd (hreplaced.mpr hsettles.replaceable) Bool.false_ne_true
        · exact absurd (hall.failed _ _ hrun).1 hother
      | true =>
        have hadmin : view.admin = true := by
          simpa using (not_or.mp (not_or.mp hadmitted).2).1
        rw [if_pos rfl] at hrun
        by_cases huid : uid = 0xffffffff
        · have hsame : (requestedCredentials environment uid gid).uid
              = environment.credentials.uid := by
            simp [requestedCredentials, changedCredentials, huid]
          rw [if_neg (by simp [huid])] at hrun
          refine ⟨fun hsettles => ⟨fun failure after hfailed => ?_, fun after hdone => ?_⟩,
            fun _ hall => ⟨.inr ?_, hreplaced.mp rfl⟩⟩
          · cases hrun.symm.trans hfailed
          · cases hrun.symm.trans hdone
            have hzero := hsettles.flagged.resolve_left (not_not.mpr huid)
            refine ⟨rfl, ?_, rfl, variablesFor_done hsysv⟩
            simp [viewAdmin, hview, hadmin, hsame, hzero]
          · have hflag := (hall.done _ hrun).2.1
            simpa [viewAdmin, hview, hadmin, hsame] using hflag
        · have hsame : (requestedCredentials environment uid gid).uid = uid := by
            simp [requestedCredentials, changedCredentials, huid]
          rw [if_pos (by simpa using huid)] at hrun
          refine ⟨fun hsettles => ⟨fun failure after hfailed => ?_, fun after hdone => ?_⟩,
            fun _ _ => ⟨.inl huid, hreplaced.mp rfl⟩⟩
          · cases hrun.symm.trans hfailed
          · cases hrun.symm.trans hdone
            refine ⟨rfl, ?_, rfl, variablesFor_done hsysv⟩
            simp [viewAdmin, hsame]

end Credentials

/-! ## A user without a shell -/

/-- A process of the administrator with a view that may change credentials. -/
def rootProcess : ProcessEnvironment ℕ where
  bindings := []
  ownedSession := none
  nativeCapabilities := false
  posixView := some
    { dominit0PosixViewCreate ⟨0, 0⟩ (.ok [47]) with admin := true, controlled := true }
  posixNamespaceRoot := none
  posixCwdSyntheticEtc := false
  sysvEnvironment := [ascii "USER=root"]
  ownedCwd := .node ⟨0, 0⟩
  credentialFiles := 0
  credentials := ⟨0, 0, true⟩
  terminalIndex := 0

/-- A group that is not that of root, changed back: all four variables are replaced. -/
theorem set_credentials_to_root :
    AllOrNothing twoDomainsConfig.users { rootProcess with credentials := ⟨0, 7, true⟩ } 0 0 := by
  refine (set_credentials_all_or_nothing twoDomains_accepted _ (by decide) 0 0).1
    (.inr ⟨.inl (by decide), fun user huser => ?_⟩)
  obtain rfl := Option.some.inj huser
  decide

/-- The call for a user without a shell reports an error and leaves the new ids. -/
theorem set_credentials_half_done :
    facetConfigParse twoDomains = .ok twoDomainsConfig ∧
      (posixSetCredentials twoDomainsConfig.users rootProcess 1 1).1 = .error .perm ∧
      (posixSetCredentials twoDomainsConfig.users rootProcess 1 1).2.credentials = ⟨1, 1, false⟩ ∧
      (posixSetCredentials twoDomainsConfig.users rootProcess 1 1).2.sysvEnvironment
        = [ascii "USER=user", ascii "HOME=/"] ∧
      ¬ AllOrNothing twoDomainsConfig.users rootProcess 1 1 := by
  have hrun : (posixSetCredentials twoDomainsConfig.users rootProcess 1 1).1 = .error .perm := by
    decide +kernel
  have hleft : (posixSetCredentials twoDomainsConfig.users rootProcess 1 1).2.credentials
      = ⟨1, 1, false⟩ := by
    decide +kernel
  refine ⟨twoDomains_accepted, hrun, hleft, by decide +kernel, fun hall => ?_⟩
  have hkept := hleft.symm.trans (hall.failed _ _ (Prod.ext hrun rfl)).1
  revert hkept
  decide

end FacetOS.Process
