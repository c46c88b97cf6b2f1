import ContractBuild.CommandLine.Arguments
import ContractBuild.Proofs.Text.Words

/-!
# Flags as the user gives them

A flag string stands for the arguments that can be seen in it: its longest parts without white space,
from left to right.  Which white space stands between them, and how much, makes no difference, so that
strings of flags can be put together and taken apart.  A compiler gets those arguments behind its
default level; the optimizer gets them instead of its default level, which it keeps if there are none.
-/

namespace ContractBuild.Flags

/-! ## Arguments that are given -/

/-- Whether some arguments are those that a flag string gives: its runs, or none if there is no
string. -/
def AreGiven : Option String → List String → Prop
  | none, args => args = []
  | some text, args => Text.AreRuns text.toList (args.map String.toList)

theorem map_toList_split (text : String) :
    (split (some text)).map String.toList = Text.words text.toList := by
  simp [split, Function.comp_def]

theorem areGiven_iff {user : Option String} {args : List String} :
    AreGiven user args ↔ args = split user := by
  cases user with
  | none => rfl
  | some text =>
    rw [AreGiven, Text.areRuns_iff, ← map_toList_split]
    exact (List.map_injective_iff.mpr fun _ _ ↦ String.toList_injective).eq_iff

theorem areGiven_split (user : Option String) : AreGiven user (split user) := areGiven_iff.mpr rfl

theorem isWord_of_mem_split {text arg : String} (h : arg ∈ split (some text)) :
    Text.IsWord arg.toList :=
  Text.isWord_of_mem_words (map_toList_split text ▸ List.mem_map_of_mem h)

/-- Nothing but white space gets lost. -/
theorem join_split (text : String) : String.join (split (some text)) =
    String.ofList (text.toList.filter fun c ↦ !Text.isBlank c) := by
  rw [← String.toList_inj, String.toList_join, List.flatMap_def, map_toList_split,
    Text.flatten_words, String.toList_ofList]

/-! ## Strings that are put together -/

theorem split_append {gap : String} (hgap : Text.IsGap gap.toList) (a b : String) :
    split (some (a ++ gap ++ b)) = split (some a) ++ split (some b) := by
  simp only [split, String.toList_append, List.append_assoc, Text.words_append_gap hgap,
    List.map_append]

theorem split_of_isWord {arg : String} (h : Text.IsWord arg.toList) : split (some arg) = [arg] := by
  simp [split, Text.words_of_isWord h]

/-- Whether a text is made of some arguments, with white space between any two neighbours. -/
inductive Joined : List String → String → Prop
  /-- Nothing is made of nothing. -/
  | nil : Joined [] ""
  /-- One argument has no neighbour. -/
  | single (arg : String) : Joined [arg] arg
  /-- There is a gap before the next argument. -/
  | cons {arg next gap text : String} {args : List String} : Text.IsGap gap.toList →
      Joined (next :: args) text → Joined (arg :: next :: args) (arg ++ gap ++ text)

/-- Joined arguments come apart again, whatever white space is between them. -/
theorem split_of_joined {args : List String} {text : String} (h : Joined args text)
    (hwords : ∀ arg ∈ args, Text.IsWord arg.toList) : split (some text) = args := by
  induction h with
  | nil => rfl
  | single arg => exact split_of_isWord (hwords arg List.mem_cons_self)
  | cons hgap _ ih =>
    obtain ⟨harg, hargs⟩ := List.forall_mem_cons.mp hwords
    rw [split_append hgap, split_of_isWord harg, ih hargs]
    rfl

theorem joined_intercalate {gap : String} (hgap : Text.IsGap gap.toList) (args : List String) :
    Joined args (gap.intercalate args) := by
  induction args with
  | nil => exact .nil
  | cons arg args ih =>
    cases args with
    | nil =>
      rw [String.intercalate_singleton]
      exact .single arg
    | cons next args =>
      rw [String.intercalate_cons_cons]
      exact .cons hgap ih

/-! ## Flags of the tools -/

theorem forOptimizer_eq (user : Option String) :
    forOptimizer user = if split user = [] then ["-O3"] else split user := by
  unfold forOptimizer
  split
  next h => rw [if_pos h]
  next h => rw [if_neg h]

/-- The arguments of a flag string are exactly its runs without white space, and they lose nothing but
white space.  Two strings with white space between them give the arguments of both, so that arguments
are found again in any text that joins them.  In the options they follow the level of each compiler, and
stand in place of that of the optimizer, which is never left without a flag. -/
theorem arguments_as_given :
    (∀ user args, split user = args ↔ AreGiven user args) ∧
    (∀ text arg : String, arg ∈ split (some text) → Text.IsWord arg.toList) ∧
    (∀ text : String, String.join (split (some text)) =
      String.ofList (text.toList.filter fun c ↦ !Text.isBlank c)) ∧
    (∀ a gap b : String, Text.IsGap gap.toList →
      split (some (a ++ gap ++ b)) = split (some a) ++ split (some b)) ∧
    (∀ text joined : String, Joined (split (some text)) joined →
      split (some joined) = split (some text)) ∧
    (∀ text gap : String, Text.IsGap gap.toList →
      split (some (gap.intercalate (split (some text)))) = split (some text)) ∧
    ∀ (a : CommandLine.Arguments) (tools : ToolPaths) (dir : Path),
      let o := a.toOptions tools dir
      (∃ args, AreGiven a.cflags args ∧ o.cflags = "-O1" :: args) ∧
      (∃ args, AreGiven a.cxxflags args ∧ o.cxxflags = "-O3" :: args) ∧
      (∃ args, AreGiven a.optFlags args ∧ o.optFlags = if args = [] then ["-O3"] else args) ∧
      o.optFlags ≠ [] := by
  have again (text joined : String) (h : Joined (split (some text)) joined) :
      split (some joined) = split (some text) :=
    split_of_joined h fun _ ↦ isWord_of_mem_split
  refine ⟨fun user args ↦ ?_, fun _ _ ↦ isWord_of_mem_split, join_split,
    fun a gap b hgap ↦ split_append hgap a b, again,
    fun text gap hgap ↦ again text _ (joined_intercalate hgap _), fun a tools dir ↦ ⟨?_, ?_, ?_, ?_⟩⟩
  · rw [areGiven_iff, eq_comm]
  · exact ⟨_, areGiven_split a.cflags, rfl⟩
  · exact ⟨_, areGiven_split a.cxxflags, rfl⟩
  · exact ⟨_, areGiven_split a.optFlags, forOptimizer_eq a.optFlags⟩
  · exact forOptimizer_ne_nil a.optFlags

/-- Arguments whose flag strings hold white space of several kinds, and nothing else for the
optimizer. -/
def sampleArguments : CommandLine.Arguments where
  abi := .ofString "wallet.abi"
  inputs := [.ofString "main.c"]
  verbose := false
  saveTemps := false
  output := none
  cflags := some "\u2003-g\u3000-DX=1\r\n"
  cxxflags := none
  linkerFlags := none
  optFlags := some " \u00A0\t"
  asmOnly := false
  inlineLoadsStores := false
  tools := ⟨none, none, none, none⟩

theorem arguments_as_given_sample :
    let text := "\u2003-g\u3000-DX=1\r\n"
    "-DX=1" ∈ split (some text) ∧ Text.IsWord "-DX=1".toList ∧
    Text.IsGap " \u2028".toList ∧ split (some (text ++ " \u2028" ++ text)) =
      ["-g", "-DX=1", "-g", "-DX=1"] ∧
    Joined (split (some text)) "-g\n-DX=1" ∧ split (some "-g\n-DX=1") = ["-g", "-DX=1"] ∧
    sampleArguments.cflags = some text ∧
    ∀ tools dir, (sampleArguments.toOptions tools dir).optFlags = ["-O3"] := by
  intro text
  obtain ⟨given, words, -, append, joined, -, options⟩ := arguments_as_given
  have args : split (some text) = ["-g", "-DX=1"] := by decide +kernel
  have gap : Text.IsGap " \u2028".toList := by decide +kernel
  have feed : Text.IsGap "\n".toList := by decide +kernel
  have mem : "-DX=1" ∈ split (some text) := by simp [args]
  have together : Joined (split (some text)) "-g\n-DX=1" := args ▸ .cons feed (.single _)
  refine ⟨mem, words text _ mem, gap, ?_, together, ?_, rfl, fun tools dir ↦ ?_⟩
  · rw [append text _ text gap, args]
    rfl
  · rw [joined text _ together, args]
  · obtain ⟨-, -, ⟨flags, hflags, hopt⟩, -⟩ := options sampleArguments tools dir
    have none_given : flags = [] := by
      rw [← (given _ _).mpr hflags]
      decide +kernel
    rw [hopt, if_pos none_given]

end ContractBuild.Flags
