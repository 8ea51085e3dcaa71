import ViewCompiler.Proofs.Template.Scanning

/-!
# Attributes bind what they were written from

The brackets around the name of an attribute decide the kind of its binding, and the name itself
decides which property a plain attribute is applied to. A list of attributes that reads like a
written one therefore gives the bindings that the written one stands for (`bindAttributes_written`).
-/

namespace ViewCompiler.Template

open ViewCompiler.Text CharacterReference

/-! ### What is bound -/

/-- The expression of a bracketed attribute is read for the kind that the brackets give, and that of
a handler is a call. -/
theorem readExpression_of_bindDynamic {component : Bool} {a : Attribute} {kind : BindingKind}
    {target : String} {v : Value} (h : bindDynamic component a = .ok (kind, target, v)) :
    dynamicTarget component a = .ok (kind, target) ∧
      readExpression kind.isHandler (a.value.getD "").toList = .ok v ∧
        (kind.isHandler = true → ∃ method arguments, v = .call method arguments) := by
  unfold bindDynamic at h
  obtain ⟨⟨kind', target'⟩, htarget, h⟩ := bind_eq_ok_iff.1 h
  simp only at h
  split at h
  · cases h
  · rename_i value hvalue
    split at h
    · obtain ⟨rfl, hrest⟩ := Prod.mk.inj (Except.ok.inj h)
      obtain ⟨rfl, rfl⟩ := Prod.mk.inj hrest
      exact ⟨htarget, hvalue, fun _ => ⟨_, _, rfl⟩⟩
    · cases h
    · rename_i hkind
      obtain ⟨rfl, hrest⟩ := Prod.mk.inj (Except.ok.inj h)
      obtain ⟨rfl, rfl⟩ := Prod.mk.inj hrest
      exact ⟨htarget, hvalue, fun hhandler => absurd (hkind.symm.trans hhandler) Bool.false_ne_true⟩

/-- An attribute is bound by its brackets, or as it stands. -/
theorem cases_of_bindAttribute {source : Source} {component : Bool} {a : Attribute} {b : Binding}
    (h : bindAttribute source component a = .ok b) :
    ∃ kind target v, b = ⟨kind, target, v, source.span a.start a.stop⟩ ∧
      (bindDynamic component a = .ok (kind, target, v) ∨
        bindLiteral component a = (kind, target, v)) := by
  unfold bindAttribute at h
  simp only at h
  split at h
  · obtain ⟨⟨kind, target, v⟩, hbind, h⟩ := bind_eq_ok_iff.1 h
    exact ⟨kind, target, v, (Except.ok.inj h).symm, .inl hbind⟩
  · split at h
    · cases h
    · split at h
      · cases h
      · exact ⟨_, _, _, (Except.ok.inj h).symm, .inr rfl⟩

theorem span_of_bindAttribute {source : Source} {component : Bool} {a : Attribute} {b : Binding}
    (h : bindAttribute source component a = .ok b) : b.span = source.span a.start a.stop := by
  obtain ⟨kind, target, v, rfl, -⟩ := cases_of_bindAttribute h
  rfl

/-! ### Names -/

private theorem notMem_of_isAttributeName {name : String} (h : isAttributeName name = true)
    {c : Char} (hc : isAttributeNameChar c = false) : c ∉ name.toList := by
  intro hmem
  simp only [isAttributeName, Bool.and_eq_true, List.all_eq_true] at h
  rw [h.2 c hmem] at hc
  cases hc

private theorem exists_cons_of_isAttributeName {name : String} (h : isAttributeName name = true) :
    ∃ c cs, name.toList = c :: cs := by
  refine List.exists_cons_of_ne_nil fun hnil => ?_
  rw [isAttributeName, hnil] at h
  cases h

private theorem not_hasPrefix {pre s : String} {c : Char} (hpre : c ∈ pre.toList)
    (hs : c ∉ s.toList) :
    hasPrefix pre s = false := by
  cases h : hasPrefix pre s with
  | false => rfl
  | true =>
    obtain ⟨rest, hrest⟩ := Option.isSome_iff_exists.1 h
    rw [dropPrefix?_eq_some_iff] at hrest
    exact absurd (hrest ▸ List.mem_append_left rest hpre) hs

/-- No character of a class that excludes names stands in one. -/
theorem any_contains_eq_false {name : String} (h : isAttributeName name = true) {cs : List Char}
    (hcs : cs.any isAttributeNameChar = false) : name.toList.any (cs.contains ·) = false := by
  refine List.any_eq_false.2 fun c hc hmem => ?_
  have hc' := List.any_eq_false.1 hcs c (by simpa using hmem)
  exact notMem_of_isAttributeName h (Bool.of_not_eq_true hc') hc

private theorem innerName?_append {opener closer : Char} {inner : List Char} (hne : inner ≠ [])
    (hinner : inner.any (['[', ']', '(', ')'].contains ·) = false) :
    innerName? closer (opener :: (inner ++ [closer])) = some inner := by
  have hdrop : ((opener :: (inner ++ [closer])).drop 1).dropLast = inner := by simp
  have hlast : (opener :: (inner ++ [closer])).getLast? = some closer := by
    rw [← List.cons_append, List.getLast?_concat]
  rw [innerName?]
  simp only [hdrop, hlast, hinner]
  simp [hne]

section Dynamic

variable {name : String} (hname : isAttributeName name = true) {x : Attribute} {text : String}
  (hvalue : x.value = some text) (component : Bool)
include hname hvalue

/-- `[name]` binds an input or a property, or an attribute when the name has a hyphen. -/
private theorem dynamicTarget_bound (hx : x.name.toList = '[' :: (name.toList ++ [']'])) :
    dynamicTarget component x =
      .ok (if name.toList.contains '-' then .attr else if component then .input else .property,
        name) := by
  obtain ⟨c, cs, hcons⟩ := exists_cons_of_isAttributeName hname
  have hinner : innerName? ']' x.name.toList = some name.toList := by
    rw [hx]
    exact innerName?_append (by simp [hcons]) (any_contains_eq_false hname rfl)
  have hdot : '.' ∉ name.toList := notMem_of_isAttributeName hname (by decide)
  -- Without a dot the name does not start like one of `[attr.name]`.
  have hattr : dropPrefix? "attr.".toList name.toList = none := by
    cases hdrop : dropPrefix? "attr.".toList name.toList with
    | none => rfl
    | some rest =>
      have hmem : '.' ∈ "attr.".toList ++ rest := List.mem_append_left rest (by decide)
      exact absurd (dropPrefix?_eq_some_iff.1 hdrop ▸ hmem) hdot
  have hdirective : hasPrefix "w:" name = false :=
    not_hasPrefix (c := ':') (by decide) (notMem_of_isAttributeName hname (by decide))
  have hhead : x.name.toList.head? = some '[' := by rw [hx, List.head?_cons]
  simp only [dynamicTarget, hhead, Option.some.injEq, Char.reduceEq, if_false, hinner, hvalue,
    Option.isNone_some, hattr, String.ofList_toList, hdirective]
  cases name.toList.contains '-' <;> simp [hdot]

/-- `[attr.name]` binds an attribute. -/
private theorem dynamicTarget_attr
    (hx : x.name.toList = '[' :: ("attr.".toList ++ name.toList ++ [']'])) :
    dynamicTarget component x = .ok (.attr, name) := by
  obtain ⟨c, cs, hcons⟩ := exists_cons_of_isAttributeName hname
  have hbrackets :
      ("attr.".toList ++ name.toList).any (['[', ']', '(', ')'].contains ·) = false := by
    rw [List.any_append, any_contains_eq_false hname rfl]
    rfl
  have hinner : innerName? ']' x.name.toList = some ("attr.".toList ++ name.toList) := by
    rw [hx]
    exact innerName?_append (by simp) hbrackets
  have hattr : dropPrefix? "attr.".toList ("attr.".toList ++ name.toList) = some (c :: cs) := by
    rw [dropPrefix?_eq_some_iff, hcons]
  have hhead : x.name.toList.head? = some '[' := by rw [hx, List.head?_cons]
  simp only [dynamicTarget, hhead, Option.some.injEq, Char.reduceEq, if_false, hinner, hvalue,
    Option.isNone_some, hattr]
  simp [← hcons]

/-- `(name)` binds an output or an event. -/
private theorem dynamicTarget_handler (hx : x.name.toList = '(' :: (name.toList ++ [')'])) :
    dynamicTarget component x = .ok (if component then .output else .event, name) := by
  obtain ⟨c, cs, hcons⟩ := exists_cons_of_isAttributeName hname
  have hinner : innerName? ')' x.name.toList = some name.toList := by
    rw [hx]
    exact innerName?_append (by simp [hcons]) (any_contains_eq_false hname rfl)
  have hhead : x.name.toList.head? = some '(' := by rw [hx, List.head?_cons]
  simp only [dynamicTarget, hhead, if_true, hinner, hvalue, Option.isNone_some,
    String.ofList_toList]
  rfl

end Dynamic

/-- A bracketed attribute binds the value that it was written from. -/
theorem bindDynamic_eq {component : Bool} {x : Attribute} {kind : BindingKind} {target : String}
    (htarget : dynamicTarget component x = .ok (kind, target)) {v : Value}
    (hwritable : v.Writable kind.isHandler) (hvalue : x.value = some v.render)
    (hcall : kind.isHandler = true → ∃ method arguments, v = .call method arguments) :
    bindDynamic component x = .ok (kind, target, v) := by
  obtain ⟨source, hsource⟩ := hwritable.read
  have hread : readExpression kind.isHandler (x.value.getD "").toList = .ok v := by
    rw [hvalue]
    exact readExpression_render hsource
  refine bind_eq_ok_iff.2 ⟨_, htarget, ?_⟩
  simp only [hread]
  cases hhandler : kind.isHandler with
  | false => rfl
  | true =>
    obtain ⟨method, arguments, rfl⟩ := hcall hhandler
    rfl

private theorem bindAttribute_of_bindDynamic {x : Attribute}
    (hhead : x.name.toList.head? = some '[' ∨ x.name.toList.head? = some '(') {component : Bool}
    {kind : BindingKind} {target : String} {v : Value}
    (h : bindDynamic component x = .ok (kind, target, v)) (source : Source) :
    bindAttribute source component x =
      .ok { kind, name := target, value := v, span := source.span x.start x.stop } := by
  have hbracket : (decide (x.name.toList.head? = some '[') ||
      decide (x.name.toList.head? = some '(')) = true := by
    simpa using hhead
  rw [bindAttribute]
  simp only [hbracket, if_true, h]
  rfl

/-- A plain attribute binds the text that it was written from. -/
private theorem bindAttribute_literal {name : String} (hname : isAttributeName name = true)
    {content : String} {x : Attribute} (hx : x.name = name)
    (hvalue : x.value = some (String.ofList (encode content))) (source : Source)
    (component : Bool) :
    ∃ b, bindAttribute source component x = .ok b ∧
      b.unplaced = (MarkupAttribute.literal name content).binding component := by
  subst hx
  obtain ⟨c, cs, hcons⟩ := exists_cons_of_isAttributeName hname
  have hbracket : (decide (x.name.toList.head? = some '[') ||
      decide (x.name.toList.head? = some '(')) = false := by
    have hsquare := notMem_of_isAttributeName hname (c := '[') (by decide)
    have hround := notMem_of_isAttributeName hname (c := '(') (by decide)
    rw [hcons] at hsquare hround ⊢
    simp [Ne.symm (List.ne_of_not_mem_cons hsquare), Ne.symm (List.ne_of_not_mem_cons hround)]
  have hdirective : hasPrefix "w:" x.name = false :=
    not_hasPrefix (c := ':') (by decide) (notMem_of_isAttributeName hname (by decide))
  have hchars : x.name.toList.any (['[', ']', '(', ')', '#', '\x7b', '\x7d'].contains ·) = false :=
    any_contains_eq_false hname rfl
  rw [bindAttribute]
  simp only [hbracket, hdirective, hchars, Bool.false_eq_true, if_false]
  refine ⟨_, rfl, ?_⟩
  simp only [bindLiteral, hvalue, Option.getD_some, decode_encode, MarkupAttribute.binding]
  cases component with
  | true => rfl
  | false =>
    cases documentProperties.lookup (lowercase x.name) with
    | none => rfl
    | some applied =>
      obtain ⟨property, always⟩ := applied
      cases always with
      | true => rfl
      | false => rfl

/-- An attribute binds what it was written from. -/
private theorem bindAttribute_written {a : MarkupAttribute} (h : a.Canonical) {x : Attribute}
    (hx : x.written = a.written) (source : Source) (component : Bool) :
    ∃ b, bindAttribute source component x = .ok b ∧ b.unplaced = a.binding component := by
  obtain ⟨hname, hvalue⟩ := Prod.mk.inj hx
  have hlist : x.name.toList = a.writtenName := by rw [hname, String.toList_ofList]
  cases a with
  | literal name content =>
    refine bindAttribute_literal h ?_ hvalue source component
    rw [hname]
    exact String.ofList_toList
  | bound name value =>
    have hkind : (if name.toList.contains '-' then BindingKind.attr
        else if component then .input else .property).isHandler = false := by
      cases name.toList.contains '-' <;> cases component <;> rfl
    have hbind := bindDynamic_eq (dynamicTarget_bound h.1 hvalue component hlist)
      (by rw [hkind]; exact h.2) (by rw [hvalue]; exact congrArg some String.ofList_toList)
      (by rw [hkind]; exact nofun)
    exact ⟨_, bindAttribute_of_bindDynamic (.inl (by rw [hlist]; rfl)) hbind source, rfl⟩
  | attr name value =>
    have hbind := bindDynamic_eq (dynamicTarget_attr h.1 hvalue component hlist) h.2
      (by rw [hvalue]; exact congrArg some String.ofList_toList) nofun
    exact ⟨_, bindAttribute_of_bindDynamic (.inl (by rw [hlist]; rfl)) hbind source, rfl⟩
  | handler name method arguments =>
    have hkind : (if component then BindingKind.output else .event).isHandler = true := by
      cases component <;> rfl
    have hbind := bindDynamic_eq (dynamicTarget_handler h.1 hvalue component hlist)
      (by rw [hkind]; exact h.2) (by rw [hvalue]; exact congrArg some String.ofList_toList)
      fun _ => ⟨method, arguments, rfl⟩
    exact ⟨_, bindAttribute_of_bindDynamic (.inr (by rw [hlist]; rfl)) hbind source, rfl⟩

/-- No attribute that is written here wraps its tag in a directive. -/
theorem not_isDirective_of_written {a : MarkupAttribute} (h : a.Canonical) {x : Attribute}
    (hx : x.written = a.written) : x.isDirective = false := by
  obtain ⟨hname, -⟩ := Prod.mk.inj hx
  have hcolon : ':' ∉ x.name.toList := by
    rw [hname, String.toList_ofList]
    intro hmem
    have := isWrittenNameChar_of_mem h ':' hmem
    revert this
    decide
  have hne : ∀ name : String, ':' ∈ name.toList → x.name ≠ name := by
    rintro name hmem rfl
    exact hcolon hmem
  simp [Attribute.isDirective, hne "[w:if]" (by decide), hne "[w:for]" (by decide)]

/-- The attributes of a tag bind what they were written from. -/
theorem bindAttributes_written {attributes : List MarkupAttribute}
    (h : ∀ a ∈ attributes, a.Canonical) {found : List Attribute}
    (hfound : found.map Attribute.written = attributes.map MarkupAttribute.written)
    (source : Source) (component : Bool) (tag : String) :
    ∃ bindings, bindAttributes source component tag none found = .ok (bindings, none) ∧
      bindings.map Binding.unplaced = attributes.map (MarkupAttribute.binding component) := by
  induction attributes generalizing found with
  | nil =>
    obtain rfl := List.map_eq_nil_iff.1 hfound
    exact ⟨[], rfl, rfl⟩
  | cons a attributes ih =>
    obtain ⟨ha, hattributes⟩ := List.forall_mem_cons.1 h
    obtain ⟨x, others, rfl, hx, hothers⟩ := List.map_eq_cons_iff.1 hfound
    obtain ⟨b, hb, hunplaced⟩ := bindAttribute_written ha hx source component
    obtain ⟨bs, hbs, hmap⟩ := ih hattributes hothers
    refine ⟨b :: bs, ?_, by rw [List.map_cons, hunplaced, hmap, List.map_cons]⟩
    rw [bindAttributes, not_isDirective_of_written ha hx, hb, hbs]
    rfl

end ViewCompiler.Template
