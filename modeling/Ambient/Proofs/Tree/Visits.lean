import Mathlib.Data.List.Basic
import Ambient.Proofs.Tree.WellKinded
import Ambient.Tree.Walk

namespace Ambient

variable {σ : Type}

/-- The place in which the nodes of a target are visited. Tokens and literals are not. -/
def Target.place? : Target → Option Place
  | .category .statement => some .statement
  | .category .type => some .type
  | .category .typeMember => some .typeMember
  | .category .classMember => some .classMember
  | .category .entityName => some .entityName
  | .category .propertyName => some .propertyName
  | .shape .enumMember => some .enumMember
  | .shape .typeParameter => some .typeParameter
  | .shape .parameter => some .parameter
  | .shape .identifier => some .identifier
  | .category .literal | .shape .token | .shape .stringLiteral => none
  | _ => some .part

theorem Target.eq_of_place?_identifier {t : Target} (h : t.place? = some .identifier) :
    t = .shape .identifier := by
  cases t with
  | category c => cases c <;> simp [place?] at h
  | shape s => cases s <;> simp [place?] at h ⊢

theorem Target.shapes_of_place?_none {t : Target} (h : t.place? = none) :
    t.shapes ⊆ [.token, .stringLiteral, .numericLiteral] := by
  cases t with
  | category c => cases c <;> simp [place?] at h; simp [shapes, Category.variants]
  | shape s => cases s <;> simp [place?] at h <;> simp [shapes]

namespace Part

/-- Whether a part is the name that something has where it is imported from or exported. -/
def isOldName (p : Part) : Bool := p.key == "PropertyName"

/-- Goes through the nodes of a part. -/
def walk (visit : Visitor σ) (p : Part) (s : σ) : σ :=
  if p.isOldName then s
  else p.places.foldl (fun s c => c.1.place?.elim s fun place => c.2.walk visit place s) s

end Part

namespace Node

variable {visit : Visitor σ} {place : Place} {n : Node} {s : σ}

theorem walk?_eq (o : Option Node) :
    walk? visit place o s = o.toList.foldl (fun s n => n.walk visit place s) s := by
  cases o <;> rfl

theorem walkList_eq (ns : List Node) :
    walkList visit place ns s = ns.foldl (fun s n => n.walk visit place s) s := by
  induction ns generalizing s with
  | nil => rfl
  | cons n ns ih => rw [walkList, ih, List.foldl_cons]

theorem walkList?_eq (ns : Option (List Node)) :
    walkList? visit place ns s = (ns.getD []).foldl (fun s n => n.walk visit place s) s := by
  cases ns with
  | none => rfl
  | some ns => exact walkList_eq ns

end Node

namespace Part

variable {visit : Visitor σ} {s : σ} {key : String} {t : Target}

/-- The nodes of a part stand in one place, if anywhere. -/
theorem walk_of_places {p : Part} {ns : List Node} (h : p.places = ns.map (t, ·)) :
    p.walk visit s = if p.key = "PropertyName" then s
      else t.place?.elim s fun place => Node.walkList visit place ns s := by
  simp only [walk, isOldName, beq_iff_eq]
  rw [h, List.foldl_map]
  cases stands : t.place? with
  | none => simp only [stands, Option.elim_none, List.foldl_fixed]
  | some place => simp only [stands, Option.elim_some, Node.walkList_eq]

theorem walk_node {n : Node} : (Part.node key t n).walk visit s =
    if key = "PropertyName" then s else t.place?.elim s fun place => n.walk visit place s := by
  have single : (Part.node key t n).places = [n].map (t, ·) := rfl
  exact walk_of_places single

theorem walk_node? {n : Option Node} : (Part.node? key t n).walk visit s =
    if key = "PropertyName" then s
    else t.place?.elim s fun place => Node.walk? visit place n s := by
  simp only [Node.walk?_eq, ← Node.walkList_eq]
  exact walk_of_places rfl

theorem walk_list {ns : List Node} : (Part.list key t ns).walk visit s =
    if key = "PropertyName" then s
    else t.place?.elim s fun place => Node.walkList visit place ns s :=
  walk_of_places rfl

theorem walk_list? {ns : Option (List Node)} : (Part.list? key t ns).walk visit s =
    if key = "PropertyName" then s
    else t.place?.elim s fun place => Node.walkList? visit place ns s := by
  simp only [Node.walkList?_eq, ← Node.walkList_eq]
  exact walk_of_places rfl

theorem walk_modifiers {ns : Option (List Node)} : (Part.modifiers ns).walk visit s = s :=
  (walk_of_places rfl).trans (ite_self s)

theorem walk_text {value : String} : (Part.text key value).walk visit s = s := by
  simp [walk, places]

theorem walk_text? {value : Option String} : (Part.text? key value).walk visit s = s := by
  simp [walk, places]

theorem walk_flag {value : Bool} : (Part.flag key value).walk visit s = s := by
  simp [walk, places]

theorem walk_bits {value : UInt32} : (Part.bits key value).walk visit s = s := by
  simp [walk, places]

theorem walk_operator {value : Kind} : (Part.operator key value).walk visit s = s := by
  simp [walk, places]

end Part

namespace Node

variable {visit : Visitor σ} {place : Place} {n : Node} {s : σ}

/-- Where a visitor says nothing, a walk goes through the parts of a node in order. -/
theorem walk_eq (silent : visit place n = none) (other : n.shape ≠ .identifier) :
    n.walk visit place s = n.parts.foldl (fun s p => p.walk visit s) s := by
  cases n with
  | identifier => exact absurd rfl other
  | _ =>
    rw [walk, silent]
    simp only [parts, List.foldl_cons, List.foldl_nil, Part.walk_node, Part.walk_node?,
      Part.walk_list, Part.walk_list?, Part.walk_modifiers, Part.walk_text, Part.walk_text?,
      Part.walk_flag, Part.walk_bits, Part.walk_operator, String.reduceEq, if_false, if_true,
      Target.place?, Option.elim_some, Option.elim_none]

theorem throughout_of_children {p : Target → Node → Prop} {t : Target} (here : p t n)
    (below : n.children.Forall fun c => c.2.Throughout p c.1) : n.Throughout p t :=
  ⟨here, List.forall_iff_forall_mem.mp below⟩

/-- All nodes of a tree have a shape of their place. -/
def WellShaped (t : Target) (n : Node) : Prop := n.Throughout (fun t n => n.shape ∈ t.shapes) t

/-- The nodes in some of the parts of a node, in order. -/
def childrenIn (kept : Part → Bool) (n : Node) : List (Target × Node) :=
  n.parts.flatMap fun p => if kept p then p.places else []

theorem mem_children_of_mem_childrenIn {kept : Part → Bool} {c : Target × Node}
    (h : c ∈ n.childrenIn kept) : c ∈ n.children := by
  obtain ⟨p, hp, hc⟩ := List.mem_flatMap.mp h
  split at hc
  · exact List.mem_flatMap.mpr ⟨p, hp, hc⟩
  · exact absurd hc List.not_mem_nil

theorem childrenIn_eq_children {kept : Part → Bool}
    (h : ∀ p ∈ n.parts, kept p = false → p.places = []) : n.childrenIn kept = n.children := by
  apply List.flatMap_congr
  intro p hp
  cases left : kept p with
  | true => rfl
  | false => exact (h p hp left).symm

/-- The node by itself, if it is an identifier. -/
def ownIdentifiers (n : Node) : List Node := if n.shape = .identifier then [n] else []

/-- The identifiers of a tree that are reached through some of the parts of its nodes, in order. -/
def identifiersIn (kept : Part → Bool) (n : Node) : List Node :=
  n.ownIdentifiers ++ (n.childrenIn kept).attach.flatMap fun c => c.1.2.identifiersIn kept
termination_by sizeOf n
decreasing_by exact sizeOf_child (mem_children_of_mem_childrenIn c.2)

/-- All identifiers of a tree, in order. -/
def identifiers (n : Node) : List Node := n.identifiersIn fun _ => true

theorem identifiersIn_eq (kept : Part → Bool) (n : Node) : n.identifiersIn kept =
    n.ownIdentifiers ++ (n.childrenIn kept).flatMap fun c => c.2.identifiersIn kept := by
  rw [identifiersIn, List.flatMap_subtype (g := fun c => c.2.identifiersIn kept) fun _ _ => rfl,
    List.unattach_attach]

theorem identifiersIn_of_childless {kept : Part → Bool} (h : n.children = []) :
    n.identifiersIn kept = n.ownIdentifiers := by
  have none : n.childrenIn kept = [] := by
    apply List.eq_nil_iff_forall_not_mem.mpr
    intro c hc
    exact List.not_mem_nil (h ▸ mem_children_of_mem_childrenIn hc)
  rw [identifiersIn_eq, none, List.flatMap_nil, List.append_nil]

theorem identifiers_eq (n : Node) :
    n.identifiers = n.ownIdentifiers ++ n.children.flatMap fun c => c.2.identifiers := by
  rw [identifiers, identifiersIn_eq, childrenIn_eq_children (by simp)]
  rfl

theorem identifiers_of_children (ns : List Node) (listed : n.children.map Prod.snd = ns)
    (other : n.shape ≠ .identifier) : n.identifiers = ns.flatMap identifiers := by
  rw [identifiers_eq, ownIdentifiers, if_neg other, List.nil_append, ← listed, List.flatMap_map]

theorem identifiers_identifier {text : String} {comment : Option String} :
    (identifier text comment).identifiers = [identifier text comment] :=
  identifiersIn_of_childless rfl

/-- Nodes that no walk comes to have no identifiers. -/
theorem identifiersIn_of_place?_none {kept : Part → Bool} {t : Target} (h : t.place? = none)
    (shaped : n.shape ∈ t.shapes) : n.identifiersIn kept = [] := by
  have leaf := Target.shapes_of_place?_none h shaped
  cases n <;> simp [shape] at leaf <;> exact identifiersIn_of_childless rfl

/-- Whether a node imports or exports something under another name. -/
def isRenaming : Node → Bool
  | .importSpecifier _ propertyName _ | .exportSpecifier _ propertyName _ => propertyName.isSome
  | _ => false

theorem places_oldName (h : n.isRenaming = false) {p : Part} (hp : p ∈ n.parts)
    (old : p.isOldName = true) : p.places = [] := by
  revert p
  cases n with
  | importSpecifier isTypeOnly propertyName name | exportSpecifier isTypeOnly propertyName name =>
    cases propertyName with
    | some => cases h
    | none => simp [parts, Part.isOldName, Part.key, Part.places]
  | _ => simp [parts, Part.isOldName, Part.key]

/-- Without renaming, no identifiers are left out. -/
theorem identifiersIn_eq_identifiers {t : Target}
    (h : n.Throughout (fun _ n => n.isRenaming = false) t) :
    (n.identifiersIn fun p => !p.isOldName) = n.identifiers := by
  induction h with
  | @intro t n here below ih =>
    have all : n.childrenIn (fun p => !p.isOldName) = n.children :=
      childrenIn_eq_children fun p hp left => places_oldName here hp (by simpa using left)
    rw [identifiers_eq, identifiersIn_eq, all]
    exact congrArg _ (List.flatMap_congr ih)

/-- Does something at all identifiers that it comes to. -/
def onIdentifiers (act : Node → σ → σ) : Visitor σ := fun place n =>
  if place = .identifier then some (act n) else none

theorem walk_onIdentifiers {act : Node → σ → σ} {t : Target} (shaped : n.WellShaped t)
    (own : place = .identifier → n.shape = .identifier) :
    n.walk (onIdentifiers act) place s =
      (n.identifiersIn fun p => !p.isOldName).foldl (fun s i => act i s) s := by
  induction shaped generalizing place s with
  | @intro t n here below ih =>
    by_cases leaf : n.shape = .identifier
    · cases n <;> simp [shape] at leaf
      rw [identifiersIn_of_childless rfl]
      by_cases h : place = .identifier <;> simp [walk, onIdentifiers, ownIdentifiers, shape, h]
    · have silent : onIdentifiers act place n = none := if_neg fun h => leaf (own h)
      have visits : ∀ c ∈ n.children, ∀ s, (c.1.place?.elim s fun place =>
          c.2.walk (onIdentifiers act) place s) =
            (c.2.identifiersIn fun p => !p.isOldName).foldl (fun s i => act i s) s := by
        intro c hc s
        obtain ⟨shape_mem, -⟩ := below c hc
        cases stands : c.1.place? with
        | none => rw [identifiersIn_of_place?_none stands shape_mem, Option.elim_none, List.foldl_nil]
        | some place =>
          apply ih c hc
          rintro rfl
          rw [Target.eq_of_place?_identifier stands] at shape_mem
          exact List.mem_singleton.mp shape_mem
      rw [walk_eq silent leaf, identifiersIn_eq, ownIdentifiers, if_neg leaf, List.nil_append,
        List.foldl_flatMap, childrenIn, List.foldl_flatMap]
      apply List.foldl_ext
      intro s p hp
      rw [Part.walk]
      cases p.isOldName with
      | true => rfl
      | false =>
        exact List.foldl_ext _ _ _ fun s c hc => visits c (List.mem_flatMap.mpr ⟨p, hp, hc⟩) s

/-- A visitor of identifiers comes to all identifiers of a file in order, each of them once, but for
the old names of renamed imports and exports. -/
theorem walk_identifiers {f : Node} {act : Node → σ → σ}
    (shaped : f.WellShaped (.shape .sourceFile)) :
    f.walk (onIdentifiers act) .part s =
        (f.identifiersIn fun p => !p.isOldName).foldl (fun s i => act i s) s ∧
      (f.Throughout (fun _ n => n.isRenaming = false) (.shape .sourceFile) →
        f.walk (onIdentifiers act) .part s = f.identifiers.foldl (fun s i => act i s) s) := by
  have visits : f.walk (onIdentifiers act) .part s = _ := walk_onIdentifiers shaped nofun
  exact ⟨visits, fun plain => identifiersIn_eq_identifiers plain ▸ visits⟩

/-- The tree of `export = A.B;`. -/
def qualifiedExport : Node :=
  .sourceFile [.exportAssignment true
    (.qualifiedName (.identifier "A" none) (.identifier "B" none))]

theorem identifiers_qualifiedExport :
    qualifiedExport.identifiers = [.identifier "A" none, .identifier "B" none] := by
  rw [qualifiedExport, identifiers_of_children [_] rfl (by decide), List.flatMap_singleton,
    identifiers_of_children [_] rfl (by decide), List.flatMap_singleton,
    identifiers_of_children [_, _] rfl (by decide), List.flatMap_cons, List.flatMap_singleton,
    identifiers_identifier, identifiers_identifier]
  rfl

theorem walk_identifiers_qualifiedExport :
    qualifiedExport.WellShaped (.shape .sourceFile) ∧
    qualifiedExport.Throughout (fun _ n => n.isRenaming = false) (.shape .sourceFile) ∧
    qualifiedExport.walk (onIdentifiers fun i names => i :: names) .part [] =
      [.identifier "B" none, .identifier "A" none] := by
  have all : qualifiedExport.Throughout (fun t n => n.shape ∈ t.shapes ∧ n.isRenaming = false)
      (.shape .sourceFile) := by
    apply throughout_of_children (by decide)
    apply throughout_of_children (by decide)
    apply throughout_of_children (by decide)
    apply And.intro
    · exact throughout_of_children (by decide) trivial
    · exact throughout_of_children (by decide) trivial
  have shaped : qualifiedExport.WellShaped (.shape .sourceFile) := all.mono fun _ _ h => h.1
  have plain := all.mono fun _ _ h => h.2
  have visits : qualifiedExport.walk (onIdentifiers fun i names => i :: names) .part [] = _ :=
    (walk_identifiers shaped).2 plain
  rw [identifiers_qualifiedExport] at visits
  exact ⟨shaped, plain, visits⟩

/-- The tree of `export { a as b };`. -/
def renamingExport : Node :=
  .sourceFile [.exportDeclaration false (some (.namedExports
    [.exportSpecifier false (some (.identifier "a" none)) (.identifier "b" none)])) none]

theorem renamingExport_shaped : renamingExport.WellShaped (.shape .sourceFile) := by
  apply throughout_of_children (by decide)
  apply throughout_of_children (by decide)
  apply throughout_of_children (by decide)
  apply throughout_of_children (by decide)
  apply And.intro
  · exact throughout_of_children (by decide) trivial
  · exact throughout_of_children (by decide) trivial

theorem identifiers_renamingExport :
    renamingExport.identifiers = [.identifier "a" none, .identifier "b" none] := by
  rw [renamingExport, identifiers_of_children [_] rfl (by decide), List.flatMap_singleton,
    identifiers_of_children [_] rfl (by decide), List.flatMap_singleton,
    identifiers_of_children [_] rfl (by decide), List.flatMap_singleton,
    identifiers_of_children [_, _] rfl (by decide), List.flatMap_cons,
    List.flatMap_singleton, identifiers_identifier, identifiers_identifier]
  rfl

/-- The old name of a renamed export is not visited. -/
theorem not_walk_identifiers : ¬ ∀ f : Node, f.WellShaped (.shape .sourceFile) →
    ∀ (act : Node → List Node → List Node) (s : List Node),
      f.walk (onIdentifiers act) .part s = f.identifiers.foldl (fun s i => act i s) s := by
  intro all
  have visits := all renamingExport renamingExport_shaped (fun i names => i :: names) []
  rw [identifiers_renamingExport] at visits
  cases visits

end Node

end Ambient
