import AttentionDB.Eviction.RecencyOrder
import Mathlib.Data.List.MinMax
import Mathlib.Data.Prod.Lex

/-!
# Which entry an eviction takes

The scan of `find_best_victim` keeps a running best over the coldest entries.
It is the first maximum of a rank in which suffix chunks come first and cheap
entries after that, read from the back of the list.
-/

namespace AttentionDB

open GuardedRuns NodeMaps

set_option autoImplicit false

namespace EvictionList

variable {list : EvictionList} {best victim other : EvictionNode}

def victimRank (node : EvictionNode) : ℕ ×ₗ ℕᵒᵈ :=
  toLex (node.entry.chunkIndex.toNat, OrderDual.toDual node.entry.recomputeCost.toNat)

theorem victim_rank_lt : victimRank best < victimRank other ↔
    best.entry.chunkIndex < other.entry.chunkIndex ∨
      other.entry.chunkIndex = best.entry.chunkIndex ∧
        other.entry.recomputeCost < best.entry.recomputeCost := by
  unfold victimRank
  rw [Prod.Lex.toLex_lt_toLex, OrderDual.toDual_lt_toDual, ← UInt32.lt_iff_toNat_lt,
    ← UInt32.lt_iff_toNat_lt, UInt32.toNat_inj]
  constructor <;>
  · rintro (suffix | ⟨same, cheaper⟩)
    · exact .inl suffix
    · exact .inr ⟨same.symm, cheaper⟩

theorem better_victim_rank (best it : EvictionNode) :
    betterVictim best it = if victimRank best < victimRank it then it else best := by
  unfold betterVictim
  simp only [victim_rank_lt]
  split_ifs <;> tauto

/-- The running best of the scan is the first maximum of what it has seen. -/
theorem scan_argmax (window : List EvictionNode) (best : EvictionNode) :
    window.foldl betterVictim best ∈ List.argmax victimRank (best :: window) := by
  unfold List.argmax
  rw [List.foldl_cons]
  change _ ∈ window.foldl _ (some best)
  induction window generalizing best with
  | nil => rfl
  | cons it window ih =>
      rw [List.foldl_cons, List.foldl_cons, better_victim_rank]
      change _ ∈ window.foldl _ (if victimRank best < victimRank it then some it else some best)
      split
      · exact ih it
      · exact ih best

def coldest (list : EvictionList) : EvictionList := list.drop (list.length - min 8 list.length)

structure VictimAt (list front : EvictionList) (victim : EvictionNode) (back : EvictionList) :
    Prop where
  whole : list = front ++ victim :: back
  window : back.length < min 8 list.length
  suffix : ∀ other ∈ coldest list, other.entry.chunkIndex ≤ victim.entry.chunkIndex
  cheapest : ∀ other ∈ coldest list, other.entry.chunkIndex = victim.entry.chunkIndex →
    victim.entry.recomputeCost ≤ other.entry.recomputeCost
  nearest : ∀ other ∈ back, other.entry.chunkIndex = victim.entry.chunkIndex →
    other.entry.recomputeCost ≠ victim.entry.recomputeCost

theorem coldest_reverse (list : EvictionList) : list.reverse.take 8 = (coldest list).reverse := by
  unfold coldest
  rw [List.take_reverse]
  congr 2
  omega

theorem best_victim_argmax (found : findBestVictim list = some victim) :
    victim ∈ List.argmax victimRank (list.reverse.take 8) := by
  unfold findBestVictim at found
  split at found
  · contradiction
  · rename_i last rest reversed
    rw [reversed]
    cases found
    -- the scan starts at the best it already holds
    have again : betterVictim last last = last := by
      rw [better_victim_rank, if_neg (lt_irrefl _)]
    rw [List.take_succ_cons, List.foldl_cons, again]
    exact scan_argmax _ _

theorem best_victim_at (unique : (ids list).Nodup) (found : findBestVictim list = some victim) :
    ∃ front back, VictimAt list front victim back := by
  have best := best_victim_argmax found
  have inWindow := List.argmax_mem best
  rcases List.append_of_mem inWindow with ⟨before, rest, window⟩
  have highest : ∀ other ∈ coldest list, victimRank other ≤ victimRank victim := by
    intro other member
    apply List.le_of_mem_argmax _ best
    rw [coldest_reverse]
    exact List.mem_reverse.2 member
  have split : list = (rest ++ list.reverse.drop 8).reverse ++ victim :: before.reverse := by
    have pieces := (List.take_append_drop 8 list.reverse).symm
    rw [window, List.append_assoc, List.cons_append] at pieces
    calc list = list.reverse.reverse := (List.reverse_reverse list).symm
      _ = (before ++ victim :: (rest ++ list.reverse.drop 8)).reverse := congrArg _ pieces
      _ = (rest ++ list.reverse.drop 8).reverse ++ victim :: before.reverse := by simp
  have short : before.length < min 8 list.length := by
    have lengths := congrArg List.length window
    simp only [List.length_take, List.length_reverse, List.length_append, List.length_cons]
      at lengths
    omega
  refine ⟨(rest ++ list.reverse.drop 8).reverse, before.reverse, ?_⟩
  refine { whole := split, window := by simpa using short, suffix := ?_, cheapest := ?_, nearest := ?_ }
  · intro other member
    apply UInt32.not_lt.1
    intro larger
    exact absurd (victim_rank_lt.2 (.inl larger)) (not_lt.2 (highest other member))
  · intro other member same
    apply UInt32.not_lt.1
    intro cheaper
    exact absurd (victim_rank_lt.2 (.inr ⟨same, cheaper⟩)) (not_lt.2 (highest other member))
  · intro other member sameChunk sameCost
    have inBefore := List.mem_reverse.1 member
    have inList : other ∈ list.reverse.take 8 := by
      rw [window]
      exact List.mem_append_left _ inBefore
    have tie : victimRank victim ≤ victimRank other := by
      unfold victimRank
      rw [sameChunk, sameCost]
    -- a tie that was scanned earlier would have been kept
    have later := List.index_of_argmax best inList tie
    have distinct : victim ∉ before := by
      intro earlier
      rw [split] at unique
      exact apart_of_ids unique victim (List.mem_append_right _ (List.mem_reverse.2 earlier)) rfl
    rw [window, List.idxOf_append_of_notMem distinct, List.idxOf_append_of_mem inBefore,
      List.idxOf_cons_self] at later
    have position := List.idxOf_lt_length_iff.2 inBefore
    omega

end EvictionList

namespace CwSlru

open EvictionList

variable {s : CwSlru}

theorem evict_from_probationary (ok : RepOk s) (some : s.probationaryList ≠ []) :
    ∃ front victim back, VictimAt s.probationaryList front victim back ∧
      s.evict = (Option.some victim.entry.key,
        s.dropProbationary (front ++ back) victim.entry.key) := by
  cases found : findBestVictim s.probationaryList with
  | none => exact absurd (best_victim_none found) some
  | some victim =>
      rcases best_victim_at ok.probationaryOk.ids found with ⟨front, back, at_⟩
      refine ⟨front, victim, back, at_, ?_⟩
      have unique := ok.probationaryOk.ids
      rw [at_.whole] at unique
      unfold evict dropProbationary
      rw [found]
      simp only
      conv_lhs => rw [at_.whole, erase_node_split unique]

theorem evict_from_protected (ok : RepOk s) (empty : s.probationaryList = [])
    (some : s.protectedList ≠ []) :
    ∃ front victim back, VictimAt s.protectedList front victim back ∧
      s.evict = (Option.some victim.entry.key,
        s.dropProtected (front ++ back) victim.entry.key) := by
  cases found : findBestVictim s.protectedList with
  | none => exact absurd (best_victim_none found) some
  | some victim =>
      rcases best_victim_at ok.protectedOk.ids found with ⟨front, back, at_⟩
      refine ⟨front, victim, back, at_, ?_⟩
      have unique := ok.protectedOk.ids
      rw [at_.whole] at unique
      have none : findBestVictim s.probationaryList = none := by
        rw [empty]
        rfl
      unfold evict dropProtected
      rw [none, found]
      simp only
      conv_lhs => rw [at_.whole, erase_node_split unique]

end CwSlru

open CwSlru EvictionList

/-- From every reachable tracker that holds an entry, an eviction takes the best
victim of the probationary list, or of the protected list when that is empty,
and leaves every other entry in its place. -/
theorem evict_takes_best_victim {s : CwSlru} (reached : Reach slruMachine s)
    (tracked : s.totalSize ≠ 0) :
    (s.probationaryList ≠ [] → ∃ front victim back, VictimAt s.probationaryList front victim back ∧
      s.evict = (some victim.entry.key, s.dropProbationary (front ++ back) victim.entry.key)) ∧
    (s.probationaryList = [] → ∃ front victim back, VictimAt s.protectedList front victim back ∧
      s.evict = (some victim.entry.key, s.dropProtected (front ++ back) victim.entry.key)) := by
  have ok := reach_rep_ok reached
  refine ⟨evict_from_probationary ok, ?_⟩
  intro empty
  apply evict_from_protected ok empty
  intro none
  simp [totalSize, empty, none] at tracked

def chunkTracker : CwSlru :=
  last slruMachine { config := {} }
    [.onInsert (slruKey 1) 60 2 1, .onInsert (slruKey 2) 50 2 2, .onInsert (slruKey 3) 50 2 3,
      .onInsert (slruKey 4) 50 0 4]

theorem evict_takes_best_victim_tie : chunkTracker.evict.1 = some (slruKey 2) ∧
    ∃ front victim back, VictimAt chunkTracker.probationaryList front victim back ∧
      chunkTracker.evict = (some victim.entry.key,
        chunkTracker.dropProbationary (front ++ back) victim.entry.key) := by
  have start : Reach slruMachine { config := {} } := .start ⟨_, rfl⟩
  have reached : Reach slruMachine chunkTracker := start.to_last _ (by decide +kernel)
  exact ⟨by decide +kernel,
    (evict_takes_best_victim reached (by decide +kernel)).1 (by decide +kernel)⟩

end AttentionDB
