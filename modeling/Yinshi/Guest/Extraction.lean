import Yinshi.Guest.Archive

/-! What an extraction leaves: the members as files, and the directories above them. -/

namespace Yinshi.Guest
open ByteText Checked List

theorem mem_properParents {front path : Path} :
    front ∈ properParents path ↔ front ≠ [] ∧ ∃ back, back ≠ [] ∧ path = front ++ back := by
  simp only [properParents, mem_map, mem_range]
  constructor
  · rintro ⟨count, short, rfl⟩
    refine ⟨?_, path.drop (count + 1), ?_, (take_append_drop _ _).symm⟩
    · intro empty
      simp [take_eq_nil_iff] at empty
      simp [empty] at short
    · intro empty
      rw [drop_eq_nil_iff] at empty
      omega
  · rintro ⟨hn, _, hb, rfl⟩
    have front_pos := length_pos_iff.mpr hn
    have back_pos := length_pos_iff.mpr hb
    refine ⟨front.length - 1, by simp only [length_append]; omega, ?_⟩
    rw [Nat.sub_add_cancel front_pos, take_left]

structure Staged (done : List (Path × Bytes)) (staged : List Entry) : Prop where
  files : ∀ path content, (path, some content) ∈ staged ↔ (path, content) ∈ done
  directories : ∀ path,
      (path, none) ∈ staged ↔
      (∃ root : Root, path = [root.name]) ∨ ∃ file ∈ done, path ∈ properParents file.1
  distinct : (staged.map (·.1)).Nodup

variable {done : List (Path × Bytes)} {staged : List Entry}

theorem staged_roots : Staged [] (roots.map fun root => ([root.name], none)) where
  files _ _ := by simp
  directories path := by
    simp only [mem_map, Prod.mk.injEq, and_true, not_mem_nil, false_and, exists_false, or_false]
    refine ⟨fun ⟨root, _, hs⟩ => ⟨root, hs.symm⟩, fun ⟨root, hs⟩ => ⟨root, ?_, hs.symm⟩⟩
    cases root <;> simp [roots]
  distinct := by decide

theorem mkdir_spec {path : Path} (hd : (staged.map (·.1)).Nodup)
  (hf : ∀ content, (path, some content) ∉ staged) :
    let next := if (path, none) ∈ staged then staged else staged ++ [(path, none)]
    (next.map (·.1)).Nodup ∧ ∀ entry, entry ∈ next ↔ entry ∈ staged ∨ entry = (path, none) := by
  intro next
  by_cases ht : (path, none) ∈ staged
  · have hs : next = staged := if_pos ht
    rw [hs]
    refine ⟨hd, fun entry => ⟨.inl, ?_⟩⟩
    rintro (hl | rfl)
    · exact hl
    · exact ht
  · have grown : next = staged ++ [(path, none)] := if_neg ht
    rw [grown]
    refine ⟨?_, by simp⟩
    rw [map_append, nodup_append]
    refine ⟨hd, by simp, fun taken hl other last => ?_⟩
    obtain ⟨⟨_, content⟩, hh, rfl⟩ := mem_map.mp hl
    simp only [map_cons, map_nil, mem_singleton] at last
    rintro rfl
    subst last
    cases content with
    | none => exact ht hh
    | some content => exact hf content hh

theorem makeParents_spec (paths : List Path) (hd : (staged.map (·.1)).Nodup)
    (free : ∀ path ∈ paths, ∀ content, (path, some content) ∉ staged) :
    ∃ staged', makeParents staged paths = .ok staged' ∧ (staged'.map (·.1)).Nodup ∧
      ∀ entry, entry ∈ staged' ↔ entry ∈ staged ∨ ∃ path ∈ paths, entry = (path, none) := by
  induction paths generalizing staged with
  | nil => exact ⟨staged, rfl, hd, by simp⟩
  | cons path _ ih =>
    have clear : ¬ staged.any fun entry => entry.1 = path ∧ entry.2.isSome := by
      simp only [any_eq_true, decide_eq_true_eq, not_exists, not_and]
      intro entry hl hs hh
      obtain ⟨content, holds⟩ := Option.isSome_iff_exists.mp hh
      exact free path (by simp) content (by rw [← hs, ← holds]; exact hl)
    obtain ⟨ha, next⟩ := mkdir_spec hd (free path (by simp))
    obtain ⟨staged', hm, hf, entries⟩ := ih ha fun other hl content => by
      rw [next]
      simpa using free other (mem_cons_of_mem _ hl) content
    refine ⟨staged', ?_, hf, fun entry => ?_⟩
    · rw [makeParents, rejectIf, if_neg clear]
      exact hm
    · rw [entries, next]
      simp [or_assoc]

structure Layered (all : List (Path × Bytes)) : Prop where
  distinct : (all.map (·.1)).Nodup
  apart : ∀ file ∈ all, ∀ other ∈ all, file.1 ∉ properParents other.1
  below : ∀ file ∈ all, ∀ root : Root, file.1 ≠ [root.name]

theorem extract_step {path : Path} {content : Bytes} {rest : List (Path × Bytes)}
    (staging : Staged done staged) (layered : Layered (done ++ (path, content) :: rest)) :
    ∃ staged', makeParents staged (properParents path) = .ok staged' ∧
      (¬ staged'.any fun entry => entry.1 = path) ∧
      Staged (done ++ [(path, content)]) (staged' ++ [(path, some content)]) := by
  have hd := layered.distinct
  rw [map_append, map_cons, nodup_append] at hd
  have hf : ∀ file ∈ done, file.1 ≠ path := fun file hl => hd.2.2 _ (mem_map_of_mem hl) _ (by simp)
  obtain ⟨staged', hm, hap, entries⟩ := makeParents_spec (properParents path) staging.distinct
    fun parent hl parentContent hh => layered.apart _
      (mem_append_left _ ((staging.files _ _).mp hh)) (path, content) (by simp) hl
  have absent : ∀ entry ∈ staged', entry.1 ≠ path := by
    rintro ⟨other, hh⟩ hl rfl
    rcases (entries _).mp hl with before | ⟨parent, ha, hs⟩
    · cases hh with
      | some hh => exact hf _ ((staging.files _ _).mp before) rfl
      | none =>
        rcases (staging.directories _).mp before with ⟨root, hs⟩ | ⟨file, earlier, ha⟩
        · exact layered.below (other, content) (by simp) root hs
        · exact layered.apart (other, content) (by simp) file (mem_append_left _ earlier) ha
    · cases hs
      exact layered.apart (other, content) (by simp) (other, content) (by simp) ha
  refine ⟨staged', hm, ?_, ?_⟩
  · simp only [any_eq_true, decide_eq_true_eq, not_exists, not_and]
    exact absent
  constructor
  · intro other hh
    rw [mem_append, entries, staging.files]
    simp
  · intro other
    rw [mem_append, entries, staging.directories]
    simp only [mem_append, mem_singleton, Prod.mk.injEq, reduceCtorEq, and_false, or_false]
    constructor
    · rintro ((root | ⟨file, earlier, ha⟩) | ⟨_, ha, hs⟩)
      · exact .inl root
      · exact .inr ⟨file, .inl earlier, ha⟩
      · exact .inr ⟨(path, content), .inr rfl, hs.1 ▸ ha⟩
    · rintro (root | ⟨file, earlier | rfl, ha⟩)
      · exact .inl (.inl root)
      · exact .inl (.inr ⟨file, earlier, ha⟩)
      · exact .inr ⟨other, ha, by simp⟩
  · rw [map_append, nodup_append]
    refine ⟨hap, by simp, fun taken hl other last => ?_⟩
    obtain ⟨entry, hh, rfl⟩ := mem_map.mp hl
    simp only [map_cons, map_nil, mem_singleton] at last
    exact last ▸ absent entry hh

theorem extract_spec (rest : List (Text × Bytes)) (staging : Staged done staged)
    (layered : Layered (done ++ rest.map fun file => (nameParts file.1, file.2))) :
    ∃ staged', extractMembers staged rest = .ok staged' ∧
      Staged (done ++ rest.map fun file => (nameParts file.1, file.2)) staged' := by
  induction rest generalizing done staged with
  | nil => exact ⟨staged, rfl, by simpa using staging⟩
  | cons _ _ ih =>
    obtain ⟨parents, hm, clear, next⟩ := extract_step staging layered
    obtain ⟨staged', extracted, ends⟩ := ih next (by simpa using layered)
    refine ⟨staged', ?_, by simpa using ends⟩
    refine bind_eq_ok.mpr ⟨parents, hm, bind_eq_ok.mpr ⟨(), rejectIf_eq_ok.mpr clear, extracted⟩⟩

end Yinshi.Guest
