import Mathlib.Data.Finset.Basic
import RustMcpCore.Auth.Outbound.Config
import RustMcpCore.Clock

/-! # The cache of access tokens -/
namespace RustMcpCore.Outbound
open Library

structure CachedOutboundToken where
  accessToken : String
  refreshToken : Option String
  expiresAt : Option DateTime

/-- There is no answer where the sum of the times panics. -/
def CachedOutboundToken.isFresh (entry : CachedOutboundToken) (now : DateTime)
    (skewSec : UInt64) : Option Bool :=
  match entry.expiresAt with
  | none => some true
  | some expiresAt =>
    match Clock.fromStd (Clock.fromSecs skewSec) with
    | none => some false
    | some skew => (Clock.add now skew).map fun limit => decide (limit < expiresAt)

theorem CachedOutboundToken.isFresh_sound {entry : CachedOutboundToken} {now : DateTime}
    {skewSec : UInt64} (h : entry.isFresh now skewSec = some true) :
    entry.expiresAt = none ∨
      ∃ expiresAt, entry.expiresAt = some expiresAt ∧ now + Clock.fromSecs skewSec < expiresAt := by
  obtain ⟨accessToken, refreshToken, expiry⟩ := entry
  cases expiry with
  | none => exact .inl rfl
  | some expiresAt =>
    right
    unfold isFresh at h
    cases hskew : Clock.fromStd (Clock.fromSecs skewSec) with
    | none =>
      rw [hskew] at h
      cases h
    | some skew =>
      rw [hskew] at h
      obtain ⟨limit, hlimit, hlt⟩ := Option.map_eq_some_iff.mp h
      have hlt := of_decide_eq_true hlt
      rw [Clock.add_eq_some hlimit, Clock.fromStd_eq_some hskew] at hlt
      exact ⟨expiresAt, rfl, hlt⟩

abbrev Entries := HashMap OutboundOauth2CacheKey CachedOutboundToken

namespace Entries

/-- No entry is one outcome, and a panic is another. -/
def getFresh (entries : Entries) (key : OutboundOauth2CacheKey) (now : DateTime)
    (skewSec : UInt64) : Option (Option CachedOutboundToken) :=
  match entries.lookup key with
  | none => some none
  | some entry => (entry.isFresh now skewSec).map fun fresh => if fresh then some entry else none

theorem getFresh_eq_some {entries : Entries} {key : OutboundOauth2CacheKey} {now : DateTime}
    {skewSec : UInt64} {entry : CachedOutboundToken} :
    entries.getFresh key now skewSec = some (some entry) ↔
      entries.lookup key = some entry ∧ entry.isFresh now skewSec = some true := by
  unfold getFresh
  cases entries.lookup key with
  | none => simp
  | some cached =>
    simp only [Option.map_eq_some_iff, Option.some.injEq]
    constructor
    · rintro ⟨fresh, hfresh, h⟩
      cases fresh with
      | false => simp at h
      | true =>
        obtain rfl : cached = entry := by simpa using h
        exact ⟨rfl, hfresh⟩
    · rintro ⟨rfl, h⟩
      exact ⟨true, h, rfl⟩

def refreshToken (entries : Entries) (key : OutboundOauth2CacheKey) : Option String :=
  (entries.lookup key).bind (·.refreshToken)

end Entries

abbrev Lock := ℕ

/-- A key gets its lock at the first request and keeps it. No two keys share one. -/
structure RefreshLockMap where
  locks : HashMap OutboundOauth2CacheKey Lock
  allocated : ℕ
  bounded : ∀ {key lock}, locks.lookup key = some lock → lock < allocated
  distinct : ∀ {key key' lock}, locks.lookup key = some lock → locks.lookup key' = some lock →
    key = key'

namespace RefreshLockMap

def empty : RefreshLockMap where
  locks := ∅
  allocated := 0
  bounded h := by cases h
  distinct h := by cases h

/-- The next `Mutex::new` is the lock of the key. -/
def allocate (map : RefreshLockMap) (key : OutboundOauth2CacheKey) : RefreshLockMap where
  locks := map.locks.insert key map.allocated
  allocated := map.allocated + 1
  bounded := by
    intro key' lock h
    rcases eq_or_ne key' key with rfl | hne
    · rw [AList.lookup_insert] at h
      cases h
      exact Nat.lt_succ_self _
    · rw [AList.lookup_insert_ne hne] at h
      exact (map.bounded h).trans (Nat.lt_succ_self _)
  distinct := by
    intro key' key'' lock h' h''
    rcases eq_or_ne key' key with rfl | hne'
    · rw [AList.lookup_insert] at h'
      cases h'
      by_contra hne
      rw [AList.lookup_insert_ne (Ne.symm hne)] at h''
      exact absurd (map.bounded h'') (lt_irrefl _)
    · rw [AList.lookup_insert_ne hne'] at h'
      rcases eq_or_ne key'' key with rfl | hne''
      · rw [AList.lookup_insert] at h''
        cases h''
        exact absurd (map.bounded h') (lt_irrefl _)
      · rw [AList.lookup_insert_ne hne''] at h''
        exact map.distinct h' h''

def orInsert (map : RefreshLockMap) (key : OutboundOauth2CacheKey) : RefreshLockMap × Lock :=
  match map.locks.lookup key with
  | some lock => (map, lock)
  | none => (map.allocate key, map.allocated)

theorem lookup_orInsert (map : RefreshLockMap) (key : OutboundOauth2CacheKey) :
    (map.orInsert key).1.locks.lookup key = some (map.orInsert key).2 := by
  unfold orInsert
  split
  · assumption
  · exact AList.lookup_insert _

theorem lookup_orInsert_of_some {map : RefreshLockMap} {key key' : OutboundOauth2CacheKey}
    {lock : Lock} (h : map.locks.lookup key' = some lock) :
    (map.orInsert key).1.locks.lookup key' = some lock := by
  unfold orInsert
  split
  · exact h
  · rename_i hnone
    have hne : key' ≠ key := by
      rintro rfl
      rw [h] at hnone
      cases hnone
    exact (AList.lookup_insert_ne hne).trans h

end RefreshLockMap

structure OutboundTokenCache where
  entries : Entries
  refreshLocks : RefreshLockMap
  /-- The locks that have a holder. -/
  locked : Finset Lock

def OutboundTokenCache.default : OutboundTokenCache := ⟨∅, .empty, ∅⟩

end RustMcpCore.Outbound
