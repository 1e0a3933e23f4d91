import BlockFlow.Proofs.Styled.Paths
import Mathlib.Data.List.Induction
import Mathlib.Data.String.Basic

/-! # Trees that load

Six checks are made of the data of a node. The data of a tree loads exactly if every node passes
all of them; then the tree has an element for each node, in the same place. Otherwise the error is
that of the first node in the order of the document which fails, for the first check it fails.
-/

namespace BlockFlow

/-! ## The data of a node -/

namespace Json

/-- The member of an object with that name. -/
def member? (value : Json) (name : String) : Option Json :=
  match value with
  | .object members => lookup? members name
  | _ => none

def keys : Json → List String
  | .object members => members.map (·.1)
  | _ => []

/-- The text of a member, which is empty unless the member is a string. -/
def textOf (value : Json) (name : String) : String :=
  match value.member? name with
  | some (.string s) => s
  | _ => ""

/-- The data of the children of a node. -/
def childItems (value : Json) : List Json :=
  match value.member? "children" with
  | some (.array items) => items
  | _ => []

/-- The data of the node that a path leads to. -/
def at? (value : Json) : TreePath → Option Json
  | [] => some value
  | i :: path => value.childItems[i]?.bind fun child => child.at? path

/-- The data of the node that a path leads to, in the data of several trees. -/
def atAll? (values : List Json) : TreePath → Option Json
  | [] => none
  | i :: path => values[i]?.bind fun value => value.at? path

end Json

/-- What is checked of the data of a node. -/
inductive NodeCheck
  | object
  | keys
  | tag
  | style
  | children
  | declarations

namespace NodeCheck

/-- The checks in the order in which they are made. -/
def order : List NodeCheck := [object, keys, tag, style, children, declarations]

def Passes (value : Json) : NodeCheck → Prop
  | object => ∃ members, value = .object members
  | keys => ∀ key ∈ value.keys, key ∈ ["tag", "style", "children"]
  | tag => ∀ x, value.member? "tag" = some x → ∃ s, x = .string s
  | style => ∀ x, value.member? "style" = some x → ∃ s, x = .string s
  | children => ∀ x, value.member? "children" = some x → ∃ items, x = .array items
  | declarations => ∃ ds, Declaration.parseList (value.textOf "style") = .ok ds

/-- The error that a check reports of the data at a path. -/
inductive Reports (value : Json) (path : TreePath) : NodeCheck → TreeError → Prop
  | object : Reports value path .object (.node path (.notObject value.kind))
  | keys {unknown : List String} : unknown.Pairwise (· < ·) →
      (∀ key, key ∈ unknown ↔ key ∈ value.keys ∧ key ∉ ["tag", "style", "children"]) →
      Reports value path .keys (.node path (.unknownKeys unknown))
  | tag : Reports value path .tag (.node path .tagNotString)
  | style : Reports value path .style (.node path .styleNotString)
  | children : Reports value path .children (.node path .childrenNotList)
  | declarations {error : SyntaxError} :
      Declaration.parseList (value.textOf "style") = .error error →
      Reports value path .declarations (.style path error)

end NodeCheck

namespace Json

/-- The data of a node that can be loaded, whatever its children are. -/
def Sound (value : Json) : Prop := ∀ check : NodeCheck, check.Passes value

/-- The data fails a check, and it is the first one that it fails. -/
inductive Fails (value : Json) (path : TreePath) (error : TreeError) : Prop
  | at (before) {check after} : NodeCheck.order = before ++ check :: after →
      (∀ passed ∈ before, passed.Passes value) → ¬ check.Passes value →
      check.Reports value path error → Fails value path error

theorem Fails.not_sound {value : Json} {path : TreePath} {error : TreeError}
    (h : value.Fails path error) : ¬ value.Sound := by
  obtain ⟨_, -, -, hCheck, -⟩ := h
  exact fun hSound => hCheck (hSound _)

/-- The element is what the data of a node gives, its children apart: each property has the value of
its last declaration. -/
structure Describes (value : Json) (e : Element Float) : Prop where
  sound : value.Sound
  tag : e.tag = value.textOf "tag"
  values : ∃ ds, Declaration.parseList (value.textOf "style") = .ok ds ∧
    ∀ name, e.style.get? name = (ds.filter fun d => d.name = name).getLast?.map (·.value)

end Json

/-! ## The last declaration counts -/

theorem Style.ofDeclarations_concat {ν : Type} (ds : List (Declaration ν)) (d : Declaration ν) :
    ofDeclarations (ds ++ [d]) = (ofDeclarations ds).set d.name d.value := by
  rw [ofDeclarations, List.foldl_append]
  rfl

theorem Style.get?_ofDeclarations {ν : Type} (ds : List (Declaration ν)) (name : String) :
    (ofDeclarations ds).get? name =
      (ds.filter fun d => d.name = name).getLast?.map (·.value) := by
  induction ds using List.reverseRecOn with
  | nil => rfl
  | append_singleton ds d ih =>
    rw [ofDeclarations_concat, get?_set, List.filter_append]
    by_cases h : d.name = name
    · have hLast : [d].filter (fun d => d.name = name) = [d] := by simp [h]
      rw [if_pos h.symm, hLast, List.getLast?_concat]
      rfl
    · have hNone : [d].filter (fun d => d.name = name) = [] := by simp [h]
      rw [if_neg (Ne.symm h), hNone, List.append_nil, ih]

/-! ## The checks -/

namespace NodeData

variable {value : Json} {name : String} {fault : NodeFault}

theorem stringOf?_member (h : ∀ x, value.member? name = some x → ∃ s, x = .string s) :
    stringOf? fault (value.member? name) = .ok (value.textOf name) := by
  unfold Json.textOf
  cases hMember : value.member? name with
  | none => rfl
  | some x =>
    obtain ⟨s, rfl⟩ := h x hMember
    rfl

theorem stringOf?_eq_error (h : ¬ ∀ x, value.member? name = some x → ∃ s, x = .string s) :
    stringOf? fault (value.member? name) = .error fault := by
  cases hMember : value.member? name with
  | none => exact absurd (fun x hx => nomatch hMember.symm.trans hx) h
  | some x =>
    cases x with
    | string s =>
      refine absurd (fun x hx => ⟨s, ?_⟩) h
      rw [hMember] at hx
      exact (Option.some.inj hx).symm
    | _ => rfl

theorem listOf?_member (h : NodeCheck.children.Passes value) :
    listOf? fault (value.member? "children") = .ok value.childItems := by
  unfold Json.childItems
  cases hMember : value.member? "children" with
  | none => rfl
  | some x =>
    obtain ⟨items, rfl⟩ := h x hMember
    rfl

theorem listOf?_eq_error (h : ¬ NodeCheck.children.Passes value) :
    listOf? fault (value.member? "children") = .error fault := by
  cases hMember : value.member? "children" with
  | none => exact absurd (fun x hx => nomatch hMember.symm.trans hx) h
  | some x =>
    cases x with
    | array items =>
      refine absurd (fun x hx => ⟨items, ?_⟩) h
      rw [hMember] at hx
      exact (Option.some.inj hx).symm
    | _ => rfl

theorem nodup_eraseDups (keys : List String) : keys.eraseDups.Nodup := by
  induction hLength : keys.length using Nat.strongRecOn generalizing keys with
  | ind n ih =>
    cases keys with
    | nil => exact .nil
    | cons key keys =>
      rw [List.eraseDups_cons, List.nodup_cons]
      constructor
      · simp [List.mem_eraseDups]
      · refine ih _ ?_ _ rfl
        rw [← hLength, List.length_cons]
        exact Nat.lt_succ_of_le (List.length_filter_le _ _)

theorem mem_unknownKeys {members : List (String × Json)} {key : String} :
    key ∈ unknownKeys members ↔ key ∈ members.map (·.1) ∧ key ∉ knownKeys := by
  rw [unknownKeys, List.mem_mergeSort, List.mem_eraseDups, List.mem_filter]
  simp

theorem pairwise_unknownKeys (members : List (String × Json)) :
    (unknownKeys members).Pairwise (· < ·) := by
  have hNodup : (unknownKeys members).Nodup :=
    (List.mergeSort_perm _ _).nodup_iff.mpr (nodup_eraseDups _)
  have hSorted : (unknownKeys members).Pairwise (fun a b => decide (a ≤ b) = true) := by
    apply List.pairwise_mergeSort
    · intro a b c hab hbc
      exact decide_eq_true (le_trans (of_decide_eq_true hab) (of_decide_eq_true hbc))
    · intro a b
      simpa using le_total a b
  refine (hSorted.and hNodup).imp ?_
  rintro a b ⟨hLe, hNe⟩
  exact lt_of_le_of_ne (of_decide_eq_true hLe) hNe

theorem unknownKeys_eq_nil_iff {members : List (String × Json)} :
    unknownKeys members = [] ↔ NodeCheck.keys.Passes (.object members) := by
  rw [List.eq_nil_iff_forall_not_mem]
  constructor
  · intro h key hKey
    by_contra hUnknown
    exact h key (mem_unknownKeys.mpr ⟨hKey, hUnknown⟩)
  · intro h key hKey
    obtain ⟨hMem, hUnknown⟩ := mem_unknownKeys.mp hKey
    exact hUnknown (h key hMem)

theorem ofJson_object {members : List (String × Json)}
    (h : NodeCheck.keys.Passes (.object members)) : ofJson (.object members) = do
      let tag ← stringOf? .tagNotString ((Json.object members).member? "tag")
      let style ← stringOf? .styleNotString ((Json.object members).member? "style")
      let children ← listOf? .childrenNotList ((Json.object members).member? "children")
      return ⟨tag, style, children⟩ := by
  rw [ofJson, ofMembers, unknownKeys_eq_nil_iff.mpr h]
  rfl

theorem ofJson_eq_error_of_not_object (h : ¬ NodeCheck.object.Passes value) :
    ofJson value = .error (.notObject value.kind) := by
  cases value with
  | object members => exact absurd ⟨members, rfl⟩ h
  | _ => rfl

theorem ofJson_eq_error_of_unknownKeys {members : List (String × Json)}
    (h : ¬ NodeCheck.keys.Passes (.object members)) :
    ofJson (.object members) = .error (.unknownKeys (unknownKeys members)) := by
  rw [← unknownKeys_eq_nil_iff] at h
  obtain ⟨key, keys, hKeys⟩ := List.exists_cons_of_ne_nil h
  rw [ofJson, ofMembers, hKeys]

/-- Either the data has the shape of a node, or the fault is the first check that it fails. -/
theorem ofJson_cases (value : Json) :
    ((∀ passed ∈ ([.object, .keys, .tag, .style, .children] : List NodeCheck),
      passed.Passes value) ∧
      ofJson value = .ok ⟨value.textOf "tag", value.textOf "style", value.childItems⟩) ∨
    ∃ fault, ofJson value = .error fault ∧ ∀ path, value.Fails path (.node path fault) := by
  by_cases hObject : NodeCheck.object.Passes value
  swap
  · exact .inr ⟨_, ofJson_eq_error_of_not_object hObject,
      fun path => .at [] rfl (List.forall_mem_nil _) hObject .object⟩
  have ⟨members, hMembers⟩ := hObject
  subst hMembers
  by_cases hKeys : NodeCheck.keys.Passes (.object members)
  swap
  · refine .inr ⟨_, ofJson_eq_error_of_unknownKeys hKeys, fun path => .at [.object] rfl ?_ hKeys
      (.keys (pairwise_unknownKeys members) fun _ => mem_unknownKeys)⟩
    simp only [List.forall_mem_cons]
    exact ⟨hObject, List.forall_mem_nil _⟩
  rw [ofJson_object hKeys]
  by_cases hTag : NodeCheck.tag.Passes (.object members)
  swap
  · rw [stringOf?_eq_error hTag]
    refine .inr ⟨_, rfl, fun path => .at [.object, .keys] rfl ?_ hTag .tag⟩
    simp only [List.forall_mem_cons]
    exact ⟨hObject, hKeys, List.forall_mem_nil _⟩
  rw [stringOf?_member hTag]
  by_cases hStyle : NodeCheck.style.Passes (.object members)
  swap
  · rw [stringOf?_eq_error hStyle]
    refine .inr ⟨_, rfl, fun path => .at [.object, .keys, .tag] rfl ?_ hStyle .style⟩
    simp only [List.forall_mem_cons]
    exact ⟨hObject, hKeys, hTag, List.forall_mem_nil _⟩
  rw [stringOf?_member hStyle]
  by_cases hChildren : NodeCheck.children.Passes (.object members)
  swap
  · rw [listOf?_eq_error hChildren]
    refine .inr ⟨_, rfl, fun path => .at [.object, .keys, .tag, .style] rfl ?_ hChildren .children⟩
    simp only [List.forall_mem_cons]
    exact ⟨hObject, hKeys, hTag, hStyle, List.forall_mem_nil _⟩
  rw [listOf?_member hChildren]
  refine .inl ⟨?_, rfl⟩
  simp only [List.forall_mem_cons]
  exact ⟨hObject, hKeys, hTag, hStyle, hChildren, List.forall_mem_nil _⟩

end NodeData

theorem Json.sound_of_passes {value : Json}
    (h : ∀ passed ∈ ([.object, .keys, .tag, .style, .children] : List NodeCheck),
      passed.Passes value)
    (hDeclarations : NodeCheck.declarations.Passes value) : value.Sound := by
  intro check
  cases check with
  | declarations => exact hDeclarations
  | _ => exact h _ (by simp)

/-! ## The nodes of a tree -/

namespace Element

theorem ofJsonAt_eq (path : TreePath) (value : Json) :
    ofJsonAt path value = match NodeData.ofJson value with
      | .error fault => .error (.node path fault)
      | .ok data => match Declaration.parseList data.style with
        | .error error => .error (.style path error)
        | .ok ds => (ofJsonItems path 0 data.children).map (mk data.tag (Style.ofDeclarations ds)) := by
  rw [ofJsonAt]
  split
  · next h => exact h ▸ rfl
  · next h => exact h ▸ rfl

theorem ofJsonAt_cases (path : TreePath) (value : Json) :
    (∃ error, ofJsonAt path value = .error error ∧ value.Fails path error) ∨
    (value.Sound ∧ sizeOf value.childItems < sizeOf value ∧
      ∃ style, ofJsonAt path value =
        (ofJsonItems path 0 value.childItems).map (mk (value.textOf "tag") style) ∧
      ∀ es, value.Describes (mk (value.textOf "tag") style es)) := by
  rw [ofJsonAt_eq]
  rcases NodeData.ofJson_cases value with ⟨hShape, hData⟩ | ⟨fault, hFault, hFails⟩
  · have hSize := NodeData.sizeOf_children_lt hData
    rw [hData]
    dsimp only
    cases hParse : Declaration.parseList (value.textOf "style") with
    | error error =>
      refine .inl ⟨_, rfl, .at [.object, .keys, .tag, .style, .children] rfl hShape ?_
        (.declarations hParse)⟩
      rintro ⟨ds, hds⟩
      rw [hParse] at hds
      cases hds
    | ok ds =>
      have hSound := Json.sound_of_passes hShape ⟨ds, hParse⟩
      exact .inr ⟨hSound, hSize, _, rfl, fun es =>
        ⟨hSound, rfl, ds, hParse, Style.get?_ofDeclarations ds⟩⟩
  · rw [hFault]
    exact .inl ⟨_, rfl, hFails path⟩

theorem ofJsonItems_cons (path : TreePath) (i : Nat) (item : Json) (rest : List Json) :
    ofJsonItems path i (item :: rest) = do
      let e ← ofJsonAt (path ++ [i]) item
      let es ← ofJsonItems path (i + 1) rest
      return e :: es := by
  rw [ofJsonItems]

mutual

theorem rel_of_ofJsonAt {path : TreePath} {value : Json} {e : Element Float}
    (h : ofJsonAt path value = .ok e) (p : TreePath) :
    Option.Rel Json.Describes (value.at? p) (e.at? p) := by
  rcases ofJsonAt_cases path value with ⟨error, hError, -⟩ | ⟨-, hSize, style, hItems, hDescribes⟩
  · rw [hError] at h
    cases h
  · rw [hItems] at h
    cases hChildren : ofJsonItems path 0 value.childItems with
    | error error =>
      rw [hChildren] at h
      cases h
    | ok es =>
      rw [hChildren] at h
      obtain rfl := Except.ok.inj h
      cases p with
      | nil => exact .some (hDescribes es)
      | cons i p => exact relAll_of_ofJsonItems hChildren (i :: p)
termination_by sizeOf value

theorem relAll_of_ofJsonItems {path : TreePath} {i : Nat} {items : List Json}
    {es : List (Element Float)} (h : ofJsonItems path i items = .ok es) (p : TreePath) :
    Option.Rel Json.Describes (Json.atAll? items p) (atAll? es p) := by
  cases items with
  | nil =>
    rw [ofJsonItems] at h
    obtain rfl := Except.ok.inj h
    cases p with
    | nil => exact .none
    | cons j p => exact .none
  | cons item rest =>
    rw [ofJsonItems_cons] at h
    cases hItem : ofJsonAt (path ++ [i]) item with
    | error error =>
      rw [hItem] at h
      cases h
    | ok e =>
    cases hRest : ofJsonItems path (i + 1) rest with
    | error error =>
      rw [hItem, hRest] at h
      cases h
    | ok es' =>
      rw [hItem, hRest] at h
      obtain rfl := Except.ok.inj h
      match p with
      | [] => exact .none
      | 0 :: p => exact rel_of_ofJsonAt hItem p
      | (j + 1) :: p => exact relAll_of_ofJsonItems hRest (j :: p)
termination_by sizeOf items

end

theorem sound_of_rel {value? : Option Json} {e? : Option (Element Float)}
    (h : Option.Rel Json.Describes value? e?) : ∀ value ∈ value?, value.Sound := by
  intro value hValue
  cases h with
  | some hDescribes =>
    obtain rfl := Option.some.inj hValue
    exact hDescribes.sound
  | none => cases hValue

mutual

theorem fails_of_ofJsonAt {path : TreePath} {value : Json} {error : TreeError}
    (h : ofJsonAt path value = .error error) :
    ∃ p faulty, value.at? p = some faulty ∧ faulty.Fails (path ++ p) error ∧
      ∀ p' < p, ∀ earlier ∈ value.at? p', earlier.Sound := by
  rcases ofJsonAt_cases path value with ⟨error', hError, hFails⟩ | ⟨hSound, hSize, style, hItems, -⟩
  · rw [hError] at h
    obtain rfl := Except.error.inj h
    refine ⟨[], value, rfl, ?_, fun p' hp' => absurd hp' (List.not_lt_nil p')⟩
    rwa [List.append_nil]
  · rw [hItems] at h
    cases hChildren : ofJsonItems path 0 value.childItems with
    | ok es =>
      rw [hChildren] at h
      cases h
    | error error' =>
      rw [hChildren] at h
      obtain rfl := Except.error.inj h
      obtain ⟨j, p, faulty, hAt, hFails, hEarlier⟩ := fails_of_ofJsonItems hChildren
      rw [Nat.zero_add] at hFails
      refine ⟨j :: p, faulty, hAt, hFails, ?_⟩
      rintro (_ | ⟨j', p'⟩) hp' earlier hMem
      · obtain rfl := Option.some.inj hMem
        exact hSound
      · exact hEarlier (j' :: p') hp' earlier hMem
termination_by sizeOf value

theorem fails_of_ofJsonItems {path : TreePath} {i : Nat} {items : List Json} {error : TreeError}
    (h : ofJsonItems path i items = .error error) :
    ∃ j p faulty, Json.atAll? items (j :: p) = some faulty ∧
      faulty.Fails (path ++ (i + j) :: p) error ∧
      ∀ p' < j :: p, ∀ earlier ∈ Json.atAll? items p', earlier.Sound := by
  cases items with
  | nil =>
    rw [ofJsonItems] at h
    cases h
  | cons item rest =>
    rw [ofJsonItems_cons] at h
    cases hItem : ofJsonAt (path ++ [i]) item with
    | error error' =>
      rw [hItem] at h
      obtain rfl := Except.error.inj h
      obtain ⟨p, faulty, hAt, hFails, hEarlier⟩ := fails_of_ofJsonAt hItem
      rw [List.append_assoc] at hFails
      refine ⟨0, p, faulty, hAt, hFails, ?_⟩
      rintro (_ | ⟨j', p'⟩) hp' earlier hMem
      · cases hMem
      · rcases List.cons_lt_cons_iff.mp hp' with hLt | ⟨rfl, hLt⟩
        · exact absurd hLt (Nat.not_lt_zero j')
        · exact hEarlier p' hLt earlier hMem
    | ok e =>
      cases hRest : ofJsonItems path (i + 1) rest with
      | ok es =>
        rw [hItem, hRest] at h
        cases h
      | error error' =>
        rw [hItem, hRest] at h
        obtain rfl := Except.error.inj h
        obtain ⟨j, p, faulty, hAt, hFails, hEarlier⟩ := fails_of_ofJsonItems hRest
        rw [Nat.add_right_comm] at hFails
        refine ⟨j + 1, p, faulty, hAt, hFails, ?_⟩
        rintro (_ | ⟨_ | j', p'⟩) hp' earlier hMem
        · cases hMem
        · exact sound_of_rel (rel_of_ofJsonAt hItem p') earlier hMem
        · refine hEarlier (j' :: p') ?_ earlier hMem
          rw [List.cons_lt_cons_iff] at hp' ⊢
          simpa using hp'
termination_by sizeOf items

end

end Element

/-- The data of a tree loads exactly if each of its nodes is sound. The tree then has an element for
each node in the same place, with the tag of the node and the last declaration of each property. If
it does not load, the error is that of the first node in the order of the document which is not
sound, for the first check that it fails. The error names this node by its path, and no two paths
have the same text. -/
theorem ofJson_exact (value : Json) :
    ((∃ e, Element.ofJson value = .ok e) ↔ ∀ path, ∀ node ∈ value.at? path, node.Sound) ∧
    (∀ e, Element.ofJson value = .ok e →
      ∀ path, Option.Rel Json.Describes (value.at? path) (e.at? path)) ∧
    (∀ error, Element.ofJson value = .error error → ∃ path node,
      value.at? path = some node ∧ node.Fails path error ∧
      (∀ earlier < path, ∀ node' ∈ value.at? earlier, node'.Sound) ∧
      ∀ fault, error = .node path fault →
        error.message = path.text ++ ": " ++ fault.message ∧
        ∀ other : TreePath, other.text = path.text → other = path) := by
  refine ⟨⟨?_, ?_⟩, fun e h => Element.rel_of_ofJsonAt h, ?_⟩
  · rintro ⟨e, h⟩ path node hNode
    exact Element.sound_of_rel (Element.rel_of_ofJsonAt h path) node hNode
  · intro hSound
    cases h : Element.ofJson value with
    | ok e => exact ⟨e, rfl⟩
    | error error =>
      obtain ⟨path, node, hNode, hFails, -⟩ := Element.fails_of_ofJsonAt h
      exact absurd (hSound path node hNode) hFails.not_sound
  · intro error h
    obtain ⟨path, node, hNode, hFails, hEarlier⟩ := Element.fails_of_ofJsonAt h
    refine ⟨path, node, hNode, hFails, hEarlier, ?_⟩
    rintro fault rfl
    exact ⟨rfl, fun other hText => TreePath.text_injective hText⟩

end BlockFlow
