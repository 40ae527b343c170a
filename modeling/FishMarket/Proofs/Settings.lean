import FishMarket.Proofs.Text.Decimal
import FishMarket.Settings

/-! # What the variables set

A number among the settings is the one that its variable writes, as long as it is within the limit,
or else the default where the variable is not set. This says which variables are accepted, and with
which settings.
-/

namespace FishMarket.Settings

variable {lookup : String → Option String}

/-- Whether a variable gives a number, or leaves it to the default, within a limit. -/
def Gives (lookup : String → Option String) (name : String) (limit fallback value : Nat) : Prop :=
  value ≤ limit ∧
    match lookup name with
    | none => value = fallback
    | some text => Text.Writes text.toList value

theorem number_eq_ok_iff {name : String} {limit fallback value : Nat}
    (hfallback : fallback ≤ limit) :
    number lookup name limit fallback = .ok value ↔ Gives lookup name limit fallback value := by
  unfold number Gives
  cases lookup name with
  | none =>
      constructor
      · rintro ⟨⟩
        exact ⟨hfallback, rfl⟩
      · rintro ⟨-, rfl⟩
        rfl
  | some text =>
      dsimp only
      constructor
      · intro hnumber
        cases hread : Text.readInteger 0 limit text.toList with
        | error fault =>
            rw [hread] at hnumber
            cases hnumber
        | ok read =>
            rw [hread] at hnumber
            obtain ⟨n, hwrites, hlimit, rfl⟩ := Text.readInteger_eq_ok_iff.mp hread
            cases hnumber
            exact ⟨hlimit, hwrites⟩
      · rintro ⟨hlimit, hwrites⟩
        rw [Text.readInteger_eq_ok_iff.mpr ⟨value, hwrites, hlimit, rfl⟩]
        rfl

/-- What the variables say of each of the settings. -/
structure Follow (lookup : String → Option String) (settings : Settings) : Prop where
  databaseUrl : lookup "DATABASE_URL" = some settings.databaseUrl
  redisUrl? : (lookup "REDIS_URL").filter (fun url => !url.isEmpty) = settings.redisUrl?
  bindAddress : (lookup "BIND_ADDR").getD "0.0.0.0:3000" = settings.bindAddress
  databaseMaxConnections :
    Gives lookup "DATABASE_MAX_CONNECTIONS" 4294967295 5 settings.databaseMaxConnections
  cacheTtlSeconds :
    Gives lookup "CACHE_TTL_SECS" 18446744073709551615 300 settings.cacheTtlSeconds
  reconcileIntervalSeconds :
    Gives lookup "RECONCILE_INTERVAL_SECS" 18446744073709551615 60 settings.reconcileIntervalSeconds

/-- Variables are accepted with the settings that follow from them, and only with those. -/
theorem ofVariables_eq_ok_iff {settings : Settings} :
    ofVariables lookup = .ok settings ↔ settings.Follow lookup := by
  have hconnections (value : Nat) :
      number lookup "DATABASE_MAX_CONNECTIONS" maxNat32 5 = .ok value ↔
        Gives lookup "DATABASE_MAX_CONNECTIONS" 4294967295 5 value :=
    number_eq_ok_iff (by decide)
  have hseconds (name : String) (value : Nat) {fallback : Nat}
      (hfallback : fallback ≤ 18446744073709551615) :
      number lookup name maxNat64 fallback = .ok value ↔
        Gives lookup name 18446744073709551615 fallback value :=
    number_eq_ok_iff hfallback
  constructor
  · intro haccepted
    cases hurl : lookup "DATABASE_URL" with
    | none =>
        simp only [ofVariables, hurl] at haccepted
        cases haccepted
    | some url =>
        simp only [ofVariables, hurl, bind, Except.bind] at haccepted
        split at haccepted
        next => cases haccepted
        next connections hmax =>
          split at haccepted
          next => cases haccepted
          next ttl httl =>
            split at haccepted
            next => cases haccepted
            next interval hinterval =>
              cases haccepted
              exact {
                databaseUrl := hurl
                redisUrl? := rfl
                bindAddress := rfl
                databaseMaxConnections := (hconnections connections).mp hmax
                cacheTtlSeconds := (hseconds _ ttl (by decide)).mp httl
                reconcileIntervalSeconds := (hseconds _ interval (by decide)).mp hinterval }
  · intro hfollow
    unfold ofVariables
    rw [hfollow.databaseUrl, hfollow.redisUrl?, hfollow.bindAddress,
      (hconnections _).mpr hfollow.databaseMaxConnections,
      (hseconds _ _ (by decide)).mpr hfollow.cacheTtlSeconds,
      (hseconds _ _ (by decide)).mpr hfollow.reconcileIntervalSeconds]
    rfl

/-- Variables for a service with a shared cache. -/
def sharing (seconds : String) : String → Option String
  | "DATABASE_URL" => some "postgres://db"
  | "REDIS_URL" => some "redis://cache"
  | "CACHE_TTL_SECS" => some seconds
  | _ => none

/-- The settings of such a service. -/
def shared (seconds : Nat) : Settings where
  databaseUrl := "postgres://db"
  redisUrl? := some "redis://cache"
  bindAddress := "0.0.0.0:3000"
  databaseMaxConnections := 5
  cacheTtlSeconds := seconds
  reconcileIntervalSeconds := 60

/-- Variables for a service with a cache of its own. -/
def keeping (seconds : String) : String → Option String
  | "DATABASE_URL" => some "postgres://db"
  | "CACHE_TTL_SECS" => some seconds
  | _ => none

/-- The settings of such a service. -/
def kept (seconds : Nat) : Settings :=
  { shared seconds with redisUrl? := none }

/-- It can be set to cache values for as many seconds as its clock lasts. -/
theorem ofVariables_keeping :
    ofVariables (keeping "9223372036854775808") = .ok (kept 9223372036854775808) := rfl

end FishMarket.Settings
