import RelyLoop.EcmaScript.JsonTrees

/-!
# Trees and their tokens

Well-formed trees with the same tokens are the same.
-/

namespace RelyLoop.EcmaScript

namespace JsonTree

variable {K K' A A' : Type}

/-! ## Other keys and atoms -/

section Map

variable {g : K → K'} {f : A → A'} {atomOf : K → A} {atomOf' : K' → A'}

mutual

/-- Other keys and atoms have other tokens. -/
theorem tokens_map (h : ∀ key, atomOf' (g key) = f (atomOf key)) (tree : JsonTree K A) :
    (tree.map g f).tokens atomOf' = (tree.tokens atomOf).map (Token.map f) := by
  cases tree with
  | atom a => rw [map, tokens, tokens, List.map_singleton, Token.map]
  | array items =>
    have hitems := itemTokens_map h items
    rw [map, mapAll_eq_map, tokens, tokens, hitems, List.map_cons, List.map_append,
      List.map_singleton, Token.map, Token.map]
  | object keys values =>
    have hmembers := memberTokens_map h keys values
    rw [map, mapAll_eq_map, tokens, tokens, hmembers, List.map_cons, List.map_append,
      List.map_singleton, Token.map, Token.map]
termination_by sizeOf tree

theorem itemTokens_map (h : ∀ key, atomOf' (g key) = f (atomOf key)) (items : List (JsonTree K A)) :
    itemTokens atomOf' (items.map (map g f)) = (itemTokens atomOf items).map (Token.map f) := by
  cases items with
  | nil => rfl
  | cons item items =>
    have hitem := tokens_map h item
    have hitems := itemTokens_map h items
    cases items with
    | nil => exact hitem
    | cons item' items =>
      rw [List.map_cons] at hitems
      rw [List.map_cons, List.map_cons, itemTokens, itemTokens, hitem, hitems, List.map_append,
        List.map_cons, Token.map]
termination_by sizeOf items

theorem memberTokens_map (h : ∀ key, atomOf' (g key) = f (atomOf key)) (keys : List K)
    (values : List (JsonTree K A)) :
    memberTokens atomOf' (keys.map g) (values.map (map g f)) =
      (memberTokens atomOf keys values).map (Token.map f) := by
  cases values with
  | nil => cases keys <;> rfl
  | cons value values =>
    have hvalue := tokens_map h value
    cases keys with
    | nil => rfl
    | cons key keys =>
      have hmembers := memberTokens_map h keys values
      cases values with
      | nil =>
        rw [List.map_cons, List.map_cons, List.map_nil, memberTokens, memberTokens, hvalue, h,
          List.map_cons, List.map_cons, Token.map, Token.map]
      | cons value' values =>
        rw [List.map_cons] at hmembers
        rw [List.map_cons, List.map_cons, List.map_cons, memberTokens, memberTokens, hvalue,
          hmembers, h, List.map_cons, List.map_cons, List.map_append, List.map_cons, Token.map,
          Token.map, Token.map]
termination_by sizeOf values

end

mutual

theorem WellFormed.map {tree : JsonTree K A} (h : tree.WellFormed) : (tree.map g f).WellFormed := by
  cases tree with
  | atom a => trivial
  | array items => exact AllWellFormed.map h
  | object keys values =>
    refine ⟨?_, AllWellFormed.map h.2⟩
    rw [mapAll_eq_map, List.length_map, List.length_map]
    exact h.1
termination_by sizeOf tree

theorem AllWellFormed.map {trees : List (JsonTree K A)} (h : AllWellFormed trees) :
    AllWellFormed (mapAll g f trees) := by
  cases trees with
  | nil => trivial
  | cons tree trees => exact ⟨WellFormed.map h.1, AllWellFormed.map h.2⟩
termination_by sizeOf trees

end

end Map

/-! ## The tree of tokens -/

section Injective

variable {atomOf : K → A}

/-- A tree does not begin with a closing bracket. -/
theorem tokens_ne_cons (tree : JsonTree K A) {token : Token A}
    (htoken : token = .rbracket ∨ token = .rbrace) (rest rest' : List (Token A)) :
    tree.tokens atomOf ++ rest ≠ token :: rest' := by
  rcases htoken with rfl | rfl <;> cases tree <;> rw [tokens] <;> simp

mutual

/-- The tokens of a tree tell where it ends, and which tree it is. -/
theorem tokens_append_inj (hinj : Function.Injective atomOf) {tree tree' : JsonTree K A}
    (hwell : tree.WellFormed) (hwell' : tree'.WellFormed) {rest rest' : List (Token A)}
    (h : tree.tokens atomOf ++ rest = tree'.tokens atomOf ++ rest') :
    tree = tree' ∧ rest = rest' := by
  cases tree with
  | atom a =>
    cases tree' with
    | atom a' =>
      obtain ⟨heq, hrest⟩ := List.cons.inj h
      exact ⟨congrArg atom (Token.atom.inj heq), hrest⟩
    | array items' => cases h
    | object keys' values' => cases h
  | array items =>
    cases tree' with
    | atom a' => cases h
    | array items' =>
      rw [tokens, tokens, List.cons_append, List.cons_append, List.append_assoc,
        List.append_assoc] at h
      obtain ⟨rfl, hrest⟩ := itemTokens_append_inj hinj hwell hwell' (List.cons.inj h).2
      exact ⟨rfl, hrest⟩
    | object keys' values' => cases h
  | object keys values =>
    cases tree' with
    | atom a' => cases h
    | array items' => cases h
    | object keys' values' =>
      rw [tokens, tokens, List.cons_append, List.cons_append, List.append_assoc,
        List.append_assoc] at h
      obtain ⟨rfl, rfl, hrest⟩ := memberTokens_append_inj hinj hwell.1 hwell'.1 hwell.2 hwell'.2
        (List.cons.inj h).2
      exact ⟨rfl, hrest⟩
termination_by sizeOf tree

theorem itemTokens_append_inj (hinj : Function.Injective atomOf)
    {items items' : List (JsonTree K A)} (hwell : AllWellFormed items)
    (hwell' : AllWellFormed items') {rest rest' : List (Token A)}
    (h : itemTokens atomOf items ++ .rbracket :: rest =
      itemTokens atomOf items' ++ .rbracket :: rest') : items = items' ∧ rest = rest' := by
  cases items with
  | nil =>
    cases items' with
    | nil => exact ⟨rfl, (List.cons.inj h).2⟩
    | cons item' items' =>
      cases items' with
      | nil => exact absurd h.symm (tokens_ne_cons item' (Or.inl rfl) _ _)
      | cons next' items' =>
        rw [itemTokens, itemTokens, List.append_assoc] at h
        exact absurd h.symm (tokens_ne_cons item' (Or.inl rfl) _ _)
  | cons item items =>
    cases items' with
    | nil =>
      cases items with
      | nil => exact absurd h (tokens_ne_cons item (Or.inl rfl) _ _)
      | cons next items =>
        rw [itemTokens, itemTokens, List.append_assoc] at h
        exact absurd h (tokens_ne_cons item (Or.inl rfl) _ _)
    | cons item' items' =>
      cases items with
      | nil =>
        cases items' with
        | nil =>
          obtain ⟨rfl, hrest⟩ := tokens_append_inj hinj hwell.1 hwell'.1 h
          exact ⟨rfl, (List.cons.inj hrest).2⟩
        | cons next items' =>
          rw [itemTokens, itemTokens, List.append_assoc] at h
          obtain ⟨-, hrest⟩ := tokens_append_inj hinj hwell.1 hwell'.1 h
          cases hrest
      | cons next items =>
        cases items' with
        | nil =>
          rw [itemTokens, itemTokens, List.append_assoc] at h
          obtain ⟨-, hrest⟩ := tokens_append_inj hinj hwell.1 hwell'.1 h
          cases hrest
        | cons next' items' =>
          rw [itemTokens, itemTokens, List.append_assoc, List.append_assoc] at h
          obtain ⟨rfl, hrest⟩ := tokens_append_inj hinj hwell.1 hwell'.1 h
          obtain ⟨heq, hrest⟩ := itemTokens_append_inj hinj hwell.2 hwell'.2 (List.cons.inj hrest).2
          exact ⟨congrArg (item :: ·) heq, hrest⟩
termination_by sizeOf items

theorem memberTokens_append_inj (hinj : Function.Injective atomOf) {keys keys' : List K}
    {values values' : List (JsonTree K A)} (hlength : keys.length = values.length)
    (hlength' : keys'.length = values'.length) (hwell : AllWellFormed values)
    (hwell' : AllWellFormed values') {rest rest' : List (Token A)}
    (h : memberTokens atomOf keys values ++ .rbrace :: rest =
      memberTokens atomOf keys' values' ++ .rbrace :: rest') :
    keys = keys' ∧ values = values' ∧ rest = rest' := by
  cases values with
  | nil =>
    obtain rfl := List.length_eq_zero_iff.mp hlength
    cases values' with
    | nil =>
      obtain rfl := List.length_eq_zero_iff.mp hlength'
      exact ⟨rfl, rfl, (List.cons.inj h).2⟩
    | cons value' values' =>
      obtain ⟨key', keys', rfl⟩ := List.exists_cons_of_length_eq_add_one hlength'
      cases values' <;> cases h
  | cons value values =>
    obtain ⟨key, keys, rfl⟩ := List.exists_cons_of_length_eq_add_one hlength
    cases values' with
    | nil =>
      obtain rfl := List.length_eq_zero_iff.mp hlength'
      cases values <;> cases h
    | cons value' values' =>
      obtain ⟨key', keys', rfl⟩ := List.exists_cons_of_length_eq_add_one hlength'
      cases values with
      | nil =>
        cases values' with
        | nil =>
          simp only [memberTokens, List.cons_append] at h
          obtain ⟨hkey, htail⟩ := List.cons.inj h
          obtain rfl := hinj (Token.atom.inj hkey)
          obtain ⟨rfl, hrest⟩ := tokens_append_inj hinj hwell.1 hwell'.1 (List.cons.inj htail).2
          obtain rfl : keys = [] := List.length_eq_zero_iff.mp (Nat.succ.inj hlength)
          obtain rfl : keys' = [] := List.length_eq_zero_iff.mp (Nat.succ.inj hlength')
          exact ⟨rfl, rfl, (List.cons.inj hrest).2⟩
        | cons next' values' =>
          simp only [memberTokens, List.cons_append, List.append_assoc] at h
          have hvalues := (List.cons.inj (List.cons.inj h).2).2
          obtain ⟨-, hrest⟩ := tokens_append_inj hinj hwell.1 hwell'.1 hvalues
          cases hrest
      | cons next values =>
        cases values' with
        | nil =>
          simp only [memberTokens, List.cons_append, List.append_assoc] at h
          have hvalues := (List.cons.inj (List.cons.inj h).2).2
          obtain ⟨-, hrest⟩ := tokens_append_inj hinj hwell.1 hwell'.1 hvalues
          cases hrest
        | cons next' values' =>
          simp only [memberTokens, List.cons_append, List.append_assoc] at h
          obtain ⟨hkey, htail⟩ := List.cons.inj h
          obtain rfl := hinj (Token.atom.inj hkey)
          obtain ⟨rfl, hrest⟩ := tokens_append_inj hinj hwell.1 hwell'.1 (List.cons.inj htail).2
          obtain ⟨rfl, heq, hrest⟩ := memberTokens_append_inj hinj (Nat.succ.inj hlength)
            (Nat.succ.inj hlength') hwell.2 hwell'.2 (List.cons.inj hrest).2
          exact ⟨rfl, congrArg (value :: ·) heq, hrest⟩
termination_by sizeOf values

end

end Injective

end JsonTree

end RelyLoop.EcmaScript
