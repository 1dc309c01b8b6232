import Rulebook.Proofs.FolderChange
import Rulebook.Proofs.InterruptedSave

/-!
# The paths of rule files

A store gives its folder the name of a file as a text, and what the system makes of a path is
decided by that text.  `components` takes a path apart as systems with the slash for a separator
do: a dot between separators stands for nothing, two dots for the folder above, and everything else
for an entry of that name.

The identifier of a rule is part of the text, so it must not get to another place.  A valid one
makes up one name with what stands around it, and that name is no dots (`isName_ruleName`,
`isName_draftName`).  Such a name adds one component to a path (`components_join`), so the files of
a rule stand where `Entry.find` looks for them, and two paths are equal only if the names are.
-/

namespace Rulebook

/-! ## Paths as texts -/

namespace PathText

/-- What a path goes through. -/
inductive Component where
  /-- The top of all folders. -/
  | root
  /-- The folder that a path begins in. -/
  | current
  /-- The folder above. -/
  | parent
  /-- An entry with a name. -/
  | normal (name : List Char)
  deriving DecidableEq

/-- The separator of names. -/
def isSeparator (c : Char) : Bool := c == '/'

/-- What a name between separators stands for.  A dot, and nothing at all, stand for nothing. -/
def component? (name : List Char) : Option Component :=
  if name = [] ∨ name = ['.'] then none
  else if name = ['.', '.'] then some .parent
  else some (.normal name)

/-- What the front of a path stands for: a separator for the top of all folders, and a dot for the
folder that the path begins in. -/
def front (path : List Char) : List Component :=
  if path.head?.any isSeparator then [.root]
  else if (path.splitOnP isSeparator).head? = some ['.'] then [.current]
  else []

/-- The components of a path. -/
def components (path : List Char) : List Component :=
  front path ++ (path.splitOnP isSeparator).filterMap component?

/-- A path with a name put behind it, unless the name is a path from the top. -/
def join (path name : List Char) : List Char :=
  if name.head?.any isSeparator then name
  else if path.getLast?.all isSeparator then path ++ name
  else path ++ '/' :: name

/-- The characters behind the last dot of a name, if anything stands before that dot. -/
def extension? (name : List Char) : Option (List Char) :=
  if name = ['.', '.'] then none
  else
    match name.reverse.dropWhile (· != '.') with
    | _ :: _ :: _ => some (name.reverse.takeWhile (· != '.')).reverse
    | _ => none

/-- The name of the entry that a path ends with. -/
def fileName? (path : List Char) : Option (List Char) :=
  match (components path).getLast? with
  | some (.normal name) => some name
  | _ => none

/-- The extension of that name. -/
def fileExtension? (path : List Char) : Option (List Char) := (fileName? path).bind extension?

example : components "/a//./b/../c".toList =
    [.root, .normal ['a'], .normal ['b'], .parent, .normal ['c']] := by decide +kernel
example : components (join "./a".toList "b".toList) = [.current, .normal ['a'], .normal ['b']] := by
  decide +kernel
example : fileExtension? "a/b.c.d/.".toList = some ['d'] ∧
    fileExtension? "a.b/.c".toList = none := by
  decide +kernel

/-- A name of one entry. -/
structure IsName (name : List Char) : Prop where
  /-- There is something. -/
  ne_nil : name ≠ []
  /-- The name is not that of the folder itself. -/
  ne_dot : name ≠ ['.']
  /-- The name is not that of the folder above. -/
  ne_dots : name ≠ ['.', '.']
  /-- There is no separator. -/
  not_separator : '/' ∉ name

variable {name path : List Char}

theorem IsName.isSeparator_eq_false (h : IsName name) {c : Char} (hc : c ∈ name) :
    isSeparator c = false :=
  beq_eq_false_iff_ne.mpr (ne_of_mem_of_not_mem hc h.not_separator)

theorem IsName.component?_eq (h : IsName name) : component? name = some (.normal name) := by
  rw [component?, if_neg (not_or.mpr ⟨h.ne_nil, h.ne_dot⟩), if_neg h.ne_dots]

theorem IsName.split_eq (h : IsName name) : name.splitOnP isSeparator = [name] :=
  List.splitOnP_eq_singleton fun _ hc => h.isSeparator_eq_false hc

theorem IsName.filterMap_eq (h : IsName name) : [name].filterMap component? = [.normal name] := by
  rw [List.filterMap_cons_some h.component?_eq, List.filterMap_nil]

theorem splitOnP_separator (path name : List Char) :
    (path ++ '/' :: name).splitOnP isSeparator =
      path.splitOnP isSeparator ++ name.splitOnP isSeparator :=
  List.splitOnP_append_cons path name rfl

/-- What stands behind a separator is not the front of a path. -/
theorem front_append (path name : List Char) :
    front (path ++ '/' :: name) = if path = [] then [.root] else front path := by
  cases path with
  | nil => rfl
  | cons c path =>
    rw [if_neg (List.cons_ne_nil c path), front, front, splitOnP_separator]
    have hhead : ((c :: path).splitOnP isSeparator ++ name.splitOnP isSeparator).head? =
        ((c :: path).splitOnP isSeparator).head? :=
      List.head?_append_of_ne_nil _ (List.splitOnP_ne_nil _ _)
    rw [hhead]
    rfl

/-- A name behind a separator is one more component. -/
theorem components_append (h : IsName name) (path : List Char) :
    components (path ++ '/' :: name) = components (path ++ ['/']) ++ [.normal name] := by
  have hnil : (([] : List Char).splitOnP isSeparator).filterMap component? = [] := rfl
  rw [components, components, front_append, front_append, splitOnP_separator, splitOnP_separator,
    List.filterMap_append, List.filterMap_append, h.split_eq, h.filterMap_eq, hnil, List.append_nil,
    List.append_assoc]

/-- A separator at the end of a path makes no difference. -/
theorem components_separator (h : path ≠ []) : components (path ++ ['/']) = components path := by
  have hnil : (([] : List Char).splitOnP isSeparator).filterMap component? = [] := rfl
  rw [components, components, front_append, if_neg h, splitOnP_separator, List.filterMap_append,
    hnil, List.append_nil]

/-- A name behind a path is one more component. -/
theorem components_join (h : IsName name) (path : List Char) :
    components (join path name) = components path ++ [.normal name] := by
  have hhead : name.head?.any isSeparator = false := by
    cases name with
    | nil => rfl
    | cons c name => exact h.isSeparator_eq_false List.mem_cons_self
  rw [join, if_neg (by simp [hhead])]
  rcases List.eq_nil_or_concat path with rfl | ⟨path, c, rfl⟩
  · -- the name alone is a path from where one is
    have hfront : front name = [] := by
      rw [front, hhead, h.split_eq, List.head?_cons]
      simp [h.ne_dot]
    have hall : ([] : List Char).getLast?.all isSeparator = true := rfl
    have hnil : components [] = [] := rfl
    rw [if_pos hall, hnil, List.nil_append, List.nil_append, components, hfront, h.split_eq,
      h.filterMap_eq, List.nil_append]
  · rw [List.concat_eq_append, List.getLast?_append, List.getLast?_singleton, Option.some_or,
      Option.all_some]
    split
    case isTrue hc =>
      obtain rfl : c = '/' := eq_of_beq hc
      rw [List.append_assoc]
      exact components_append h path
    case isFalse =>
      rw [components_append h, components_separator (List.append_ne_nil_of_right_ne_nil _
        (List.cons_ne_nil c []))]

/-- A path to a name ends with it. -/
theorem fileExtension?_join (h : IsName name) (path : List Char) :
    fileExtension? (join path name) = extension? name := by
  rw [fileExtension?, fileName?, components_join h, List.getLast?_append, List.getLast?_singleton,
    Option.some_or]
  rfl

/-- Two paths to names are equal only if the names are. -/
theorem join_injective {name' : List Char} (h : IsName name) (h' : IsName name')
    (heq : join path name = join path name') : name = name' := by
  have hcomponents := congrArg components heq
  rw [components_join h, components_join h'] at hcomponents
  exact Component.normal.inj (List.cons.inj (List.append_cancel_left hcomponents)).1

/-- The extension stands behind the last dot. -/
theorem extension?_eq_some_iff {extension : List Char} :
    extension? name = some extension ↔ name ≠ ['.', '.'] ∧ '.' ∉ extension ∧
      ∃ before, before ≠ [] ∧ name = before ++ '.' :: extension := by
  have hsplit : name.reverse.takeWhile (· != '.') ++ name.reverse.dropWhile (· != '.') =
      name.reverse := List.takeWhile_append_dropWhile
  constructor
  · intro h
    rw [extension?] at h
    split at h
    case isTrue => cases h
    case isFalse hdots =>
      split at h
      case h_1 c d cs hdrop =>
        obtain rfl := Option.some.inj h
        have hc : c = '.' := by
          have := List.head?_dropWhile_not (· != '.') name.reverse
          simpa [hdrop] using this
        refine ⟨hdots, fun hmem => ?_, (d :: cs).reverse, by simp, ?_⟩
        · have hall := List.all_eq_true.mp List.all_takeWhile '.' (List.mem_reverse.mp hmem)
          exact absurd hall (by decide)
        · rw [hdrop, hc] at hsplit
          refine List.reverse_injective (hsplit.symm.trans ?_)
          simp
      case h_2 => cases h
  · rintro ⟨hdots, hdot, before, hne, rfl⟩
    obtain ⟨c, cs, hcs⟩ := List.exists_cons_of_ne_nil (mt List.reverse_eq_nil_iff.mp hne)
    have hall : ∀ c ∈ extension.reverse, (c != '.') = true := by
      intro c hc
      exact bne_iff_ne.mpr (ne_of_mem_of_not_mem (List.mem_reverse.mp hc) hdot)
    have hreverse : (before ++ '.' :: extension).reverse = extension.reverse ++ '.' :: c :: cs := by
      rw [List.reverse_append, List.reverse_cons, hcs, List.append_assoc, List.singleton_append]
    rw [extension?, if_neg hdots, hreverse, List.dropWhile_append_of_pos hall,
      List.takeWhile_append_of_pos hall]
    simp

end PathText

/-! ## Names -/

namespace FolderStore

open PathText

variable {id : String}

/-- A valid identifier has no separator, and it makes up a name with what stands around it, if that
does not end with a dot. -/
theorem isName_of_isValidId (before after : List Char) (h : isValidId id = true)
    (hbefore : '/' ∉ before) (hafter : '/' ∉ after)
    (hlast : after.getLast?.any (· != '.') = true) : IsName (before ++ id.toList ++ after) := by
  obtain ⟨c, cs, hid, -⟩ := exists_cons_of_isValidId h
  obtain ⟨d, hd, hdot⟩ := (Option.any_eq_true _ _).mp hlast
  have hend : (before ++ id.toList ++ after).getLast? = some d := by
    rw [List.getLast?_append, hd, Option.some_or]
  constructor
  · rw [hid]
    simp
  · intro heq
    rw [heq] at hend
    cases hend
    cases hdot
  · intro heq
    rw [heq] at hend
    cases hend
    cases hdot
  · rw [isValidId, Bool.and_eq_true, List.all_eq_true] at h
    intro hmem
    rw [List.mem_append, List.mem_append] at hmem
    rcases hmem with (hmem | hmem) | hmem
    · exact hbefore hmem
    · exact absurd (h.2 _ hmem) (by decide)
    · exact hafter hmem

theorem isName_rulesFolder : IsName rulesFolder.toList := by
  constructor <;> decide +kernel

theorem toList_ruleName (id : String) : (ruleName id).toList = id.toList ++ ".yaml".toList :=
  String.toList_append

theorem toList_draftName (id : String) :
    (draftName id).toList = '.' :: id.toList ++ ".yaml.tmp".toList := by
  rw [draftName, String.toList_append, String.toList_append]
  rfl

/-- The name of a rule file is one of an entry. -/
theorem isName_ruleName (h : isValidId id = true) : IsName (ruleName id).toList := by
  rw [toList_ruleName]
  exact isName_of_isValidId [] _ h List.not_mem_nil (by decide +kernel) (by decide +kernel)

/-- The name of a draft is one of an entry. -/
theorem isName_draftName (h : isValidId id = true) : IsName (draftName id).toList := by
  rw [toList_draftName]
  exact isName_of_isValidId ['.'] _ h (by decide) (by decide +kernel) (by decide +kernel)

theorem draftName_injective : Function.Injective draftName := by
  intro a b h
  have hlist := congrArg String.toList h
  rw [toList_draftName, toList_draftName, List.cons_append, List.cons_append,
    List.cons.injEq] at hlist
  exact String.toList_inj.mp (List.append_cancel_right hlist.2)

/-- A name is one of a rule file if its extension says so. -/
theorem isRuleName_iff_extension? {name : String} :
    isRuleName name = true ↔ extension? name.toList = some "yaml".toList := by
  rw [isRuleName, Bool.and_eq_true, List.isSuffixOf_iff_suffix, decide_eq_true_eq,
    extension?_eq_some_iff]
  constructor
  · rintro ⟨⟨before, hbefore⟩, hlength⟩
    refine ⟨?_, by decide +kernel, before, ?_, hbefore.symm⟩
    · intro heq
      rw [heq] at hlength
      exact absurd hlength (by decide)
    · rintro rfl
      rw [← hbefore] at hlength
      exact absurd hlength (by decide)
  · rintro ⟨-, -, before, hne, hname⟩
    have hpos := List.length_pos_iff.mpr hne
    refine ⟨⟨before, hname.symm⟩, ?_⟩
    rw [hname, List.length_append]
    exact Nat.lt_add_of_pos_left hpos

/-! ## Paths -/

/-- The path of the folder of the rules. -/
def rulesPath (root : List Char) : List Char := join root rulesFolder.toList

/-- The path of the file of a rule. -/
def rulePath (root : List Char) (id : String) : List Char :=
  join (rulesPath root) (ruleName id).toList

/-- The path of the draft of a rule. -/
def draftPath (root : List Char) (id : String) : List Char :=
  join (rulesPath root) (draftName id).toList

/-- Whether the files of a rule stand in the folder of the rules, and only the one that is no draft
counts as a rule file. -/
structure Confined (root : List Char) (id : String) : Prop where
  /-- The file is an entry of the folder. -/
  rule : components (rulePath root id) =
    components root ++ [.normal rulesFolder.toList, .normal (ruleName id).toList]
  /-- The draft is an entry of the folder. -/
  draft : components (draftPath root id) =
    components root ++ [.normal rulesFolder.toList, .normal (draftName id).toList]
  /-- The names are no dots and have no separators. -/
  names : IsName (ruleName id).toList ∧ IsName (draftName id).toList
  /-- The file counts as a rule file. -/
  listed : fileExtension? (rulePath root id) = some "yaml".toList
  /-- The draft does not. -/
  unlisted : fileExtension? (draftPath root id) ≠ some "yaml".toList

theorem confined (root : List Char) (h : isValidId id = true) : Confined root id where
  rule := by
    rw [rulePath, components_join (isName_ruleName h), rulesPath,
      components_join isName_rulesFolder, List.append_assoc]
    rfl
  draft := by
    rw [draftPath, components_join (isName_draftName h), rulesPath,
      components_join isName_rulesFolder, List.append_assoc]
    rfl
  names := ⟨isName_ruleName h, isName_draftName h⟩
  listed := by
    rw [rulePath, fileExtension?_join (isName_ruleName h)]
    exact isRuleName_iff_extension?.mp (isRuleName_ruleName h)
  unlisted := by
    rw [draftPath, fileExtension?_join (isName_draftName h), Ne,
      ← isRuleName_iff_extension?, isRuleName_draftName]
    exact Bool.false_ne_true

/-! ## Identifiers that are not valid -/

/-- Identifiers that are not valid are passed over. -/
theorem find_filter_isValidId (s : FolderStore) (ids : List String) :
    s.find (ids.filter isValidId) = s.find ids := by
  have hlookUp : ∀ found, s.lookUp found (ids.filter isValidId) = s.lookUp found ids := by
    induction ids with
    | nil => intro found; rfl
    | cons id ids ih =>
      intro found
      rw [List.filter_cons]
      split
      case isTrue =>
        simp only [lookUp_cons, ih]
      case isFalse hid =>
        rw [lookUp_cons, if_neg (fun h => hid h.1), ih]
  rw [find, find, hlookUp]

/-- The files of a rule stand in the folder of the rules, under names of their own, and by its
extension only the one that is no draft counts as a rule file.  This is so for all identifiers that
are valid, and for others nothing is written and nothing is read. -/
theorem rulePaths_confined :
    (∀ (root : List Char) (id : String), isValidId id = true → Confined root id) ∧
    (∀ (root : List Char) (id id' : String), isValidId id = true → isValidId id' = true →
      draftPath root id ≠ rulePath root id' ∧
      (id ≠ id' → rulePath root id ≠ rulePath root id' ∧ draftPath root id ≠ draftPath root id')) ∧
    (∀ (root : List Char) (name : String), IsName name.toList →
      (isRuleName name = true ↔
        fileExtension? (join (rulesPath root) name.toList) = some "yaml".toList)) ∧
    (∀ (id expression : String) (s : FolderStore), isValidId id = false →
      s.save ⟨id, expression⟩ = (.error (.invalidId id), s)) ∧
    (∀ (s s' : FolderStore) (ids : List String),
      (∀ id ∈ ids, isValidId id = true →
        s'.root.readText [rulesFolder, ruleName id] = s.root.readText [rulesFolder, ruleName id]) →
      s'.find ids = s.find (ids.filter isValidId)) := by
  refine ⟨fun root id h => confined root h, ?_, ?_, ?_, ?_⟩
  · intro root id id' h h'
    refine ⟨fun heq => ?_, fun hne => ⟨fun heq => hne ?_, fun heq => hne ?_⟩⟩
    · have hname := join_injective (isName_draftName h) (isName_ruleName h') heq
      exact draftName_ne_ruleName h' (String.toList_inj.mp hname)
    · have hname := join_injective (isName_ruleName h) (isName_ruleName h') heq
      exact ruleName_injective (String.toList_inj.mp hname)
    · have hname := join_injective (isName_draftName h) (isName_draftName h') heq
      exact draftName_injective (String.toList_inj.mp hname)
  · intro root name h
    rw [fileExtension?_join h]
    exact isRuleName_iff_extension?
  · intro id expression s h
    rw [save, if_pos (by simp [h])]
  · intro s s' ids h
    rw [find_filter_isValidId]
    refine find_congr fun id hid hvalid => ?_
    rw [readRule, readRule, h id hid hvalid]

/-- Identifiers that look like drafts, and one that looks like a path. -/
theorem rulePaths_confined_dots :
    Confined "/data".toList "a..yaml.tmp" ∧
      draftPath "/data".toList "a" ≠ rulePath "/data".toList "a.yaml.tmp" ∧
      rulePath "/data".toList "a" ≠ rulePath "/data".toList "a.yaml" ∧
      empty.save ⟨"../a", "x > 1"⟩ = (.error (.invalidId "../a"), empty) ∧
      (empty.save ⟨"a", "x > 1"⟩).2.find ["../a", ".a"] = empty.find [] := by
  obtain ⟨hconfined, hdistinct, -, hsave, hfind⟩ := rulePaths_confined
  have hother := hdistinct "/data".toList "a" "a.yaml" (by decide +kernel) (by decide +kernel)
  have hdraft := hdistinct "/data".toList "a" "a.yaml.tmp" (by decide +kernel) (by decide +kernel)
  refine ⟨hconfined _ _ (by decide +kernel), hdraft.1, (hother.2 (by decide)).1,
    hsave _ _ _ (by decide +kernel), hfind _ _ _ fun id hid hvalid => ?_⟩
  -- neither of the two is valid
  exact absurd hvalid (by revert id; decide +kernel)

end FolderStore

end Rulebook
