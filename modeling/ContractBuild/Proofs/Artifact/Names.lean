import ContractBuild.Artifact.Kind
import ContractBuild.Proofs.Path.Join

/-!
# Names of intermediate files

No two intermediate files of a build have the same name, and in a directory no two have the same
path: the name shows the kind and the number.
-/

namespace ContractBuild

namespace Path

/-- Behind one directory, paths that do not start at the root are as different as they are. -/
theorem eq_of_join_eq {dir p q : Path} (hp : p.isAbsolute = false) (hq : q.isAbsolute = false)
    (h : dir.join p = dir.join q) : p = q := by
  simp only [join, hp, hq, Bool.false_eq_true, if_false] at h
  obtain ⟨p⟩ := p
  obtain ⟨q⟩ := q
  split at h <;> simpa using h

end Path

/-! ## Names of artifacts -/

namespace ArtifactKind

/-- What the name of a file ends with before its extension. -/
def numbering (n : Nat) : List Char := if n = 0 then [] else '-' :: Nat.toDigits 10 (n + 1)

/-- The name of a kind with the number of its stage. -/
def stem (kind : ArtifactKind) : List Char := s!"{kind.number}-{kind.label}".toList

theorem toList_fileName (kind : ArtifactKind) (n : Nat) :
    (kind.fileName n).toList = kind.stem ++ numbering n ++ '.' :: kind.extension.toList := by
  by_cases hn : n = 0
  · simp [fileName, stem, numbering, hn, toString]
  · simp [fileName, stem, numbering, hn, toString]

/-- The first three characters tell the kinds apart. -/
theorem eq_of_take_stem {kind kind' : ArtifactKind} (h : kind.stem.take 3 = kind'.stem.take 3) :
    kind = kind' := by
  revert h
  cases kind <;> cases kind' <;> decide

theorem eq_of_numbering_eq {n n' : Nat} (h : numbering n = numbering n') : n = n' := by
  unfold numbering at h
  split at h <;> split at h
  · omega
  · cases h
  · cases h
  · have digits := congrArg (fun ds ↦ Nat.ofDigitChars 10 ds 0) (List.cons.inj h).2
    simp only [Nat.ofDigitChars_ten_toDigits] at digits
    omega

/-- The name of an intermediate file shows its kind and its number. -/
theorem fileName_inj {kind kind' : ArtifactKind} {n n' : Nat}
    (h : kind.fileName n = kind'.fileName n') : kind = kind' ∧ n = n' := by
  have chars := congrArg String.toList h
  rw [toList_fileName, toList_fileName] at chars
  have long (k : ArtifactKind) : 3 ≤ k.stem.length := by cases k <;> decide
  have take (k : ArtifactKind) (rest : List Char) : (k.stem ++ rest).take 3 = k.stem.take 3 :=
    List.take_append_of_le_length (long k)
  have kinds : kind = kind' := by
    have := congrArg (List.take 3) chars
    rw [List.append_assoc, List.append_assoc, take, take] at this
    exact eq_of_take_stem this
  subst kinds
  exact ⟨rfl, eq_of_numbering_eq (List.append_cancel_left (List.append_cancel_right chars))⟩

/-- Names of intermediate files are written in plain characters. -/
theorem isPlain_of_mem_fileName {kind : ArtifactKind} {n : Nat} {c : Char}
    (h : c ∈ (kind.fileName n).toList) : Path.isPlain c := by
  have written (k : ArtifactKind) : ∀ c ∈ k.stem ++ '.' :: k.extension.toList, Path.isPlain c := by
    rw [← List.all_eq_true]
    cases k <;> decide
  rw [toList_fileName, List.append_assoc, List.mem_append, List.mem_append] at h
  rcases h with h | h | h
  · exact written kind c (List.mem_append_left _ h)
  · unfold numbering at h
    split at h
    · cases h
    · rcases List.mem_cons.mp h with rfl | h
      · decide
      · exact Path.isPlain_of_isDigit (Nat.isDigit_of_mem_toDigits (by decide) (by decide) h)
  · exact written kind c (List.mem_append_right _ h)

/-- The name of an intermediate file is one, and starts with the number of its stage. -/
theorem isName_fileName (kind : ArtifactKind) (n : Nat) :
    (Path.ofString (kind.fileName n)).IsName := by
  obtain ⟨c, cs, hc, hne⟩ : ∃ c cs, (kind.fileName n).toList = c :: cs ∧ c ≠ '.' := by
    rw [toList_fileName]
    cases kind <;> exact ⟨_, _, rfl, by decide⟩
  exact Path.isName_ofString hc (fun _ ↦ isPlain_of_mem_fileName) hne

/-- In a directory, the path of an intermediate file shows its kind and its number. -/
theorem join_fileName_inj {dir : Path} {kind kind' : ArtifactKind} {n n' : Nat}
    (h : dir.join (.ofString (kind.fileName n)) = dir.join (.ofString (kind'.fileName n'))) :
    kind = kind' ∧ n = n' := by
  have same := Path.eq_of_join_eq (isName_fileName kind n).isAbsolute
    (isName_fileName kind' n').isAbsolute h
  have ascii {k : ArtifactKind} {m : Nat} (c : Char) (hc : c ∈ (k.fileName m).toList) :
      c.toNat < 0x80 := Path.toNat_lt_of_isPlain (isPlain_of_mem_fileName hc)
  exact fileName_inj (String.toList_injective
    (Utf8.eq_of_encode_eq ascii ascii (congrArg Path.raw same)))

end ArtifactKind

end ContractBuild
