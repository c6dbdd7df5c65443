import Yinshi.Base.Checked

/-! Contents of a directory: its entries one after another, each a leaf or a directory with
contents of its own. A directory carries a value, for instance its identity. -/

namespace Yinshi
open List

inductive Forest (κ ι α : Type)
  | nil
  | leaf (name : κ) (value : α) (rest : Forest κ ι α)
  | node (name : κ) (value : ι) (inside rest : Forest κ ι α)

namespace Forest
open Checked

variable {κ ι α ε : Type}

def names : Forest κ ι α → List κ
  | nil => []
  | leaf name _ rest => name :: rest.names
  | node name _ _ rest => name :: rest.names

def append : Forest κ ι α → Forest κ ι α → Forest κ ι α
  | nil, other => other
  | leaf name value rest, other => leaf name value (rest.append other)
  | node name value inside rest, other => node name value inside (rest.append other)

def leaves : Forest κ ι α → List (List κ × α)
  | nil => []
  | leaf name value rest => ([name], value) :: rest.leaves
  | node name _ inside rest => (inside.leaves.map fun below => (name :: below.1, below.2)) ++ rest.leaves

def nodes : Forest κ ι α → List (List κ)
  | nil => []
  | leaf _ _ rest => rest.nodes
  | node name _ inside rest => [name] :: (inside.nodes.map (name :: ·) ++ rest.nodes)

def size : Forest κ ι α → Nat
  | nil => 0
  | leaf _ _ rest => rest.size + 1
  | node _ _ inside rest => inside.size + rest.size + 1

def removal : Forest κ ι α → Option (Forest κ ι α)
  | nil => none
  | leaf _ _ rest => some rest
  | node name value inside rest =>
    match inside.removal with
    | some less => some (node name value less rest)
    | none => some rest

section Names
variable [DecidableEq κ]

def child (name : κ) : Forest κ ι α → Option (ι × Forest κ ι α)
  | nil => none
  | leaf _ _ rest => rest.child name
  | node name' value inside rest => if name' = name then some (value, inside) else rest.child name

def value (name : κ) : Forest κ ι α → Option α
  | nil => none
  | leaf name' value rest => if name' = name then some value else rest.value name
  | node _ _ _ rest => rest.value name

/-- An edit of the contents of the directory at a path; a name on the way that is no directory
is `missing`. -/
def within (missing : ε) (edit : Forest κ ι α → Except ε (Forest κ ι α)) :
    List κ → Forest κ ι α → Except ε (Forest κ ι α)
  | [], forest => edit forest
  | _ :: _, nil => .error missing
  | name :: path, leaf name' value rest => (within missing edit (name :: path) rest).map (leaf name' value)
  | name :: path, node name' value inside rest =>
    if name' = name then (within missing edit path inside).map fun inside' => node name' value inside' rest
    else (within missing edit (name :: path) rest).map (node name' value inside)

def inside : List κ → Forest κ ι α → Option (Forest κ ι α)
  | [], forest => some forest
  | _ :: _, nil => none
  | name :: path, leaf _ _ rest => inside (name :: path) rest
  | name :: path, node name' _ kids rest => if name' = name then inside path kids else inside (name :: path) rest

def assign (name : κ) (value : α) : Forest κ ι α → Forest κ ι α
  | nil => nil
  | leaf name' old rest =>
    if name' = name then leaf name' value rest else leaf name' old (rest.assign name value)
  | node name' old inside rest => node name' old inside (rest.assign name value)

def without (name : κ) : Forest κ ι α → Forest κ ι α
  | nil => nil
  | leaf name' value rest => if name' = name then rest.without name else leaf name' value (rest.without name)
  | node name' value inside rest =>
    if name' = name then rest.without name else node name' value inside (rest.without name)

end Names

def Distinct : Forest κ ι α → Prop
  | nil => True
  | leaf name _ rest => name ∉ rest.names ∧ rest.Distinct
  | node name _ inside rest => name ∉ rest.names ∧ inside.Distinct ∧ rest.Distinct

variable {forest forest' other kids kids' : Forest κ ι α} {path : List κ} {name : κ}

attribute [local simp] names append leaves nodes size removal child value within inside assign
  without Distinct

theorem names_append : (forest.append other).names = forest.names ++ other.names := by
  induction forest with
  | nil => rfl
  | leaf name value rest ih | node name value hi rest _ ih => exact congrArg (name :: ·) ih

theorem leaves_append : (forest.append other).leaves = forest.leaves ++ other.leaves := by
  induction forest with
  | nil => rfl
  | leaf name value rest ih => exact congrArg (([name], value) :: ·) ih
  | node _ _ _ _ _ ih =>
    simp only [append, leaves, append_assoc]
    rw [ih]

theorem nodes_append : (forest.append other).nodes = forest.nodes ++ other.nodes := by
  induction forest with
  | nil => rfl
  | leaf name value rest ih => exact ih
  | node _ _ _ _ _ ih =>
    simp only [append, nodes, cons_append, append_assoc]
    rw [ih]

theorem name_mem_of_node (ht : name :: path ∈ forest.nodes) : name ∈ forest.names := by
  induction forest with
  | nil => exact nomatch ht
  | leaf name' value rest ih => exact mem_cons_of_mem _ (ih ht)
  | node _ _ _ _ _ ih =>
    simp only [nodes, mem_cons, mem_append, mem_map] at ht
    rcases ht with hs | ⟨_, -, hs⟩ | ht
    · exact mem_cons.mpr (.inl (cons.inj hs).1)
    · exact mem_cons.mpr (.inl (cons.inj hs).1.symm)
    · exact mem_cons_of_mem _ (ih ht)

theorem size_removal (removed : forest.removal = some forest') : forest'.size < forest.size := by
  induction forest generalizing forest' with
  | nil => exact nomatch removed
  | leaf name value rest ih =>
    cases removed
    exact Nat.lt_succ_self _
  | node _ _ hi _ ih _ =>
    unfold removal at removed
    cases less : hi.removal with
    | none =>
      rw [less] at removed
      cases removed
      simp only [size]
      omega
    | some _ =>
      rw [less] at removed
      cases removed
      have smaller := ih less
      simp only [size]
      omega

theorem eq_nil_of_removal (stuck : forest.removal = none) : forest = nil := by
  cases forest with
  | nil => rfl
  | leaf name value rest => exact nomatch stuck
  | node _ _ _ _ =>
    unfold removal at stuck
    split at stuck <;> exact nomatch stuck

section Edits
variable [DecidableEq κ] {missing : ε} {edit edit' : Forest κ ι α → Except ε (Forest κ ι α)}

theorem assign_append_of_not_mem {value new : α} {rest : Forest κ ι α} (ha : name ∉ forest.names) :
    (forest.append (leaf name value rest)).assign name new =
      forest.append (leaf name new rest) := by
  induction forest with
  | nil => exact if_pos rfl
  | leaf name' old rest' ih =>
    simp only [names, mem_cons, not_or] at ha
    simp only [append, assign]
    rw [if_neg (Ne.symm ha.1), ih ha.2]
  | node _ _ _ _ _ ih =>
    simp only [names, mem_cons, not_or] at ha
    simp only [append, assign]
    rw [ih ha.2]

theorem value_of_not_mem (ha : name ∉ forest.names) : forest.value name = none := by
  induction forest with
  | nil => rfl
  | leaf name' value rest ih =>
    simp only [names, mem_cons, not_or] at ha
    simp only [Forest.value, if_neg (Ne.symm ha.1), ih ha.2]
  | node _ _ _ _ _ ih =>
    simp only [names, mem_cons, not_or] at ha
    simp only [Forest.value, ih ha.2]

theorem value_append_of_not_mem {value : α} {rest : Forest κ ι α} (ha : name ∉ forest.names) :
    (forest.append (leaf name value rest)).value name = some value := by
  induction forest with
  | nil => exact if_pos rfl
  | leaf name' old rest' ih =>
    simp only [names, mem_cons, not_or] at ha
    simp only [append, Forest.value, if_neg (Ne.symm ha.1), ih ha.2]
  | node _ _ _ _ _ ih =>
    simp only [names, mem_cons, not_or] at ha
    simp only [append, Forest.value, ih ha.2]

theorem without_of_not_mem (ha : name ∉ forest.names) : forest.without name = forest := by
  induction forest with
  | nil => rfl
  | leaf name' value rest ih | node name' value hi rest _ ih =>
    simp only [names, mem_cons, not_or] at ha
    simp only [without]
    rw [if_neg (Ne.symm ha.1), ih ha.2]

theorem inside_cons :
    inside (name :: path) forest = (forest.child name).bind fun found => inside path found.2 := by
  induction forest with
  | nil => rfl
  | leaf name' value rest ih => exact ih
  | node name' _ _ _ _ ih =>
    by_cases hs : name' = name
    · simp only [inside, child, if_pos hs, Option.bind_some]
    · simp only [inside, child, if_neg hs]
      exact ih

theorem within_within (hd : within missing edit path forest = .ok forest') :
    within missing edit' path forest' =
      within missing (fun kids => edit kids >>= edit') path forest := by
  fun_induction within missing edit path forest generalizing forest' with
  | case1 _ =>
    simp only [within, hd]
    rfl
  | case2 name path => exact nomatch hd
  | case3 name path name' value rest ih =>
    obtain ⟨rest', inner, rfl⟩ := map_eq_ok.mp hd
    simp only [within]
    rw [ih inner]
  | case4 path name' value hi rest ih =>
    obtain ⟨_, inner, rfl⟩ := map_eq_ok.mp hd
    simp only [within, if_true]
    rw [ih inner]
  | case5 _ _ _ _ _ _ ha ih =>
    obtain ⟨_, inner, rfl⟩ := map_eq_ok.mp hd
    simp only [within, if_neg ha]
    rw [ih inner]

theorem within_congr (found : inside path forest = some kids) (same : edit kids = edit' kids) :
    within missing edit path forest = within missing edit' path forest := by
  fun_induction inside path forest with
  | case1 _ =>
    cases found
    simp only [within, same]
  | case2 name path => exact nomatch found
  | case3 name path name' value rest ih => simp only [within, ih found]
  | case4 path name' value inside rest ih => simp only [within, if_true, ih found]
  | case5 _ _ _ _ _ _ ha ih => simp only [within, if_neg ha, ih found]

theorem within_error_of_inside {error : ε} (found : inside path forest = some kids)
    (fails : edit kids = .error error) : within missing edit path forest = .error error := by
  fun_induction inside path forest with
  | case1 _ =>
    cases found
    simp only [within, fails]
  | case2 name path => exact nomatch found
  | case3 name path name' value rest ih => simp only [within, ih found, Except.map]
  | case4 path name' value inside rest ih => simp only [within, if_true, ih found, Except.map]
  | case5 _ _ _ _ _ _ ha ih => simp only [within, if_neg ha, ih found, Except.map]

theorem inside_of_append (hf : (inside (path ++ [name]) forest).isSome = true) :
    ∃ kids, inside path forest = some kids ∧ name ∈ kids.names := by
  fun_induction inside path forest with
  | case1 forest =>
    refine ⟨forest, rfl, ?_⟩
    induction forest with
    | nil => exact nomatch hf
    | leaf name' value rest ih => exact mem_cons_of_mem _ (ih hf)
    | node name' value kids rest _ ih =>
      simp only [nil_append, inside] at hf
      split at hf
      next hs => exact mem_cons.mpr (.inl hs.symm)
      next => exact mem_cons_of_mem _ (ih hf)
  | case2 first path => exact nomatch hf
  | case3 first path name' value rest ih => exact ih hf
  | case4 path name' value kids rest ih => exact ih (by simpa [inside] using hf)
  | case5 _ _ _ _ _ _ ha ih => exact ih (by simpa [inside, ha] using hf)

theorem names_within (hd : within missing edit (name :: path) forest = .ok forest') :
    forest'.names = forest.names := by
  induction forest generalizing forest' with
  | nil => exact nomatch hd
  | leaf name' value rest ih =>
    obtain ⟨rest', inner, rfl⟩ := map_eq_ok.mp hd
    exact congrArg (name' :: ·) (ih inner)
  | node name' _ _ _ _ ih =>
    simp only [within] at hd
    split at hd
    · obtain ⟨_, inner, rfl⟩ := map_eq_ok.mp hd
      rfl
    · obtain ⟨_, inner, rfl⟩ := map_eq_ok.mp hd
      exact congrArg (name' :: ·) (ih inner)

theorem inside_of_mem (hd : forest.Distinct) (ht : path ∈ forest.nodes) :
    ∃ kids, inside path forest = some kids := by
  induction forest generalizing path with
  | nil => exact nomatch ht
  | leaf name value rest ih =>
    cases path with
    | nil => exact ⟨_, rfl⟩
    | cons first path => exact ih hd.2 ht
  | node name _ kids _ ih ih' =>
    cases path with
    | nil => exact ⟨_, rfl⟩
    | cons first _ =>
      simp only [nodes, mem_cons, mem_append, mem_map] at ht
      simp only [inside]
      by_cases hs : name = first
      · subst hs
        rw [if_pos rfl]
        rcases ht with hs | ⟨hb, ht, hs⟩ | ht
        · rw [(cons.inj hs).2]
          exact ⟨kids, by cases kids <;> rfl⟩
        · rw [← (cons.inj hs).2]
          exact ih hd.2.1 ht
        · exact absurd (name_mem_of_node ht) hd.1
      · rw [if_neg hs]
        rcases ht with hs' | ⟨_, -, hs'⟩ | ht
        · exact absurd (cons.inj hs').1.symm hs
        · exact absurd (cons.inj hs').1 hs
        · exact ih' hd.2.2 ht

theorem within_of_inside (found : inside path forest = some kids) (done : edit kids = .ok kids') :
    ∃ forest', within missing edit path forest = .ok forest' := by
  fun_induction inside path forest with
  | case1 _ =>
    cases found
    exact ⟨kids', by simp only [within, done]⟩
  | case2 name path => exact nomatch found
  | case3 name path name' value rest ih =>
    obtain ⟨rest', done⟩ := ih found
    exact ⟨leaf name' value rest', by simp only [within, done, Except.map]⟩
  | case4 path name' value inside rest ih =>
    obtain ⟨hi', done⟩ := ih found
    exact ⟨node name' value hi' rest, by simp only [within, done, if_true, Except.map]⟩
  | case5 _ _ name' value inside _ ha ih =>
    obtain ⟨rest', done⟩ := ih found
    exact ⟨node name' value inside rest', by simp only [within, done, if_neg ha, Except.map]⟩

omit [DecidableEq κ] in
theorem mem_of_name (ht : name ∈ forest.names) :
    [name] ∈ forest.leaves.map (·.1) ∨ [name] ∈ forest.nodes := by
  induction forest with
  | nil => exact nomatch ht
  | leaf name' value rest ih =>
    rcases List.mem_cons.mp ht with rfl | ht
    · exact .inl (List.mem_cons_self ..)
    · exact (ih ht).imp (List.mem_cons_of_mem _) id
  | node _ _ _ _ _ ih =>
    rcases List.mem_cons.mp ht with rfl | ht
    · exact .inr (List.mem_cons_self ..)
    · refine (ih ht).imp (fun ht => ?_) fun ht => List.mem_cons_of_mem _ (List.mem_append_right _ ht)
      rw [leaves, List.map_append]
      exact List.mem_append_right _ ht

theorem mem_of_inside (hf : inside path forest = some kids) (ht : name ∈ kids.names) :
    path ++ [name] ∈ forest.leaves.map (·.1) ∨ path ++ [name] ∈ forest.nodes := by
  fun_induction inside path forest with
  | case1 _ =>
    cases hf
    exact mem_of_name ht
  | case2 first path => exact nomatch hf
  | case3 first path name' value rest ih => exact (ih hf).imp (mem_cons_of_mem _) id
  | case4 path name' value kids' rest ih =>
    refine (ih hf).imp (fun ht => ?_) fun ht => ?_
    · rw [leaves, map_append, map_map]
      obtain ⟨hb, hm, hs⟩ := mem_map.mp ht
      exact mem_append_left _ (mem_map.mpr ⟨hb, hm, congrArg (name' :: ·) hs⟩)
    · exact mem_cons_of_mem _ (mem_append_left _ (mem_map.mpr ⟨_, ht, rfl⟩))
  | case5 _ _ _ _ _ _ _ ih =>
    refine (ih hf).imp (fun ht => ?_) fun ht => mem_cons_of_mem _ (mem_append_right _ ht)
    rw [leaves, map_append]
    exact mem_append_right _ ht

section Add
variable {new : Forest κ ι α}

theorem leaves_within
    (hd : within missing (fun kids => .ok (kids.append new)) path forest = .ok forest') :
    forest'.leaves.Perm
      (forest.leaves ++ new.leaves.map fun below => (path ++ below.1, below.2)) := by
  generalize added :
    (fun kids => Except.ok (kids.append new) : Forest κ ι α → Except ε (Forest κ ι α)) = edit at hd
  fun_induction within missing edit path forest generalizing forest' with
  | case1 _ =>
    subst added
    cases hd
    simp [leaves_append]
  | case2 name path => exact nomatch hd
  | case3 name path name' value rest ih =>
    obtain ⟨rest', inner, rfl⟩ := map_eq_ok.mp hd
    exact (ih inner).cons _
  | case4 path name' value hi rest ih =>
    obtain ⟨_, inner, rfl⟩ := map_eq_ok.mp hd
    have moved := ((ih inner).map fun below => (name' :: below.1, below.2)).append_right rest.leaves
    refine moved.trans ?_
    simp only [leaves, map_append, map_map, append_assoc]
    exact (perm_append_comm.append_left _)
  | case5 _ _ _ _ _ _ _ ih =>
    obtain ⟨_, inner, rfl⟩ := map_eq_ok.mp hd
    refine ((ih inner).append_left _).trans ?_
    simp only [leaves, append_assoc]
    exact .rfl

theorem nodes_within
    (hd : within missing (fun kids => .ok (kids.append new)) path forest = .ok forest') :
    forest'.nodes.Perm (forest.nodes ++ new.nodes.map (path ++ ·)) := by
  generalize added :
    (fun kids => Except.ok (kids.append new) : Forest κ ι α → Except ε (Forest κ ι α)) = edit at hd
  fun_induction within missing edit path forest generalizing forest' with
  | case1 _ =>
    subst added
    cases hd
    simp [nodes_append]
  | case2 name path => exact nomatch hd
  | case3 name path name' value rest ih =>
    obtain ⟨rest', inner, rfl⟩ := map_eq_ok.mp hd
    simp only [nodes]
    exact ih inner
  | case4 path name' value hi rest ih =>
    obtain ⟨_, inner, rfl⟩ := map_eq_ok.mp hd
    have moved := ((ih inner).map (name' :: ·)).append_right rest.nodes
    refine (moved.cons _).trans ?_
    simp only [nodes, map_append, map_map, append_assoc, cons_append]
    exact ((perm_append_comm.append_left _).cons _)
  | case5 _ _ _ _ _ _ _ ih =>
    obtain ⟨_, inner, rfl⟩ := map_eq_ok.mp hd
    refine (((ih inner).append_left _).cons _).trans ?_
    simp only [nodes, append_assoc, cons_append]
    exact .rfl

omit [DecidableEq κ] in
theorem distinct_append (hd : forest.Distinct) (hd' : new.Distinct)
    (ha : ∀ name ∈ new.names, name ∉ forest.names) : (forest.append new).Distinct := by
  induction forest with
  | nil => exact hd'
  | leaf name value rest ih =>
    refine ⟨?_, ih hd.2 fun other hm ht => ha other hm (List.mem_cons_of_mem _ ht)⟩
    rw [names_append, List.mem_append]
    exact not_or.mpr ⟨hd.1, fun hm => ha name hm (List.mem_cons_self ..)⟩
  | node name _ _ _ _ ih =>
    refine ⟨?_, hd.2.1, ih hd.2.2 fun other hm ht => ha other hm (List.mem_cons_of_mem _ ht)⟩
    rw [names_append, List.mem_append]
    exact not_or.mpr ⟨hd.1, fun hm => ha name hm (List.mem_cons_self ..)⟩

theorem distinct_within (distinct : forest.Distinct) (found : inside path forest = some kids)
    (distinct' : new.Distinct) (apart : ∀ name ∈ new.names, name ∉ kids.names)
    (done : within missing (fun kids => .ok (kids.append new)) path forest = .ok forest') :
    forest'.Distinct := by
  generalize added : (fun kids =>
        Except.ok (kids.append new) : Forest κ ι α → Except ε (Forest κ ι α)) = edit at done
  fun_induction within missing edit path forest generalizing forest' with
  | case1 _ =>
    subst added
    cases done
    simp only [Forest.inside, Option.some.injEq] at found
    subst found
    exact distinct_append distinct distinct' apart
  | case2 name path => exact nomatch done
  | case3 name path name' value rest ih =>
    obtain ⟨rest', inner, rfl⟩ := map_eq_ok.mp done
    refine ⟨?_, ih distinct.2 found inner⟩
    rw [names_within inner]
    exact distinct.1
  | case4 path name' value inside rest ih =>
    obtain ⟨_, inner, rfl⟩ := map_eq_ok.mp done
    simp only [Forest.inside, if_true] at found
    exact ⟨distinct.1, ih distinct.2.1 found inner, distinct.2.2⟩
  | case5 _ _ _ _ _ _ hd ih =>
    obtain ⟨_, inner, rfl⟩ := map_eq_ok.mp done
    simp only [Forest.inside, if_neg hd] at found
    refine ⟨?_, distinct.2.1, ih distinct.2.2 found inner⟩
    rw [names_within inner]
    exact distinct.1

end Add

end Edits

end Forest

end Yinshi
