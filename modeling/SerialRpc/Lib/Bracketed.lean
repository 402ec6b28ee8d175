import Mathlib.Data.List.Basic

/-!
# `SerialRpc.Lib.Bracketed`: texts with brackets and separators

A term is a leaf, or terms between brackets with separators between them, and a `Spelling` says
how the leaves, the brackets and the separators are written. `text` writes a term out in one
piece and `pieces` one part after the other.

`text_injective` is unique readability: where the spelling is `Readable`, the text of a term says
what the term is. The induction has a rest behind each text (`text_append_inj`). A leaf has to be
told from what may come behind it, the end, a closing bracket or a separator (`Ends`). A bracketed
term ends by itself.
-/

set_option autoImplicit false

namespace Bracketed

variable {α κ σ ℓ : Type}

mutual

/-- A leaf, or a pair of brackets with some terms in it. -/
inductive Term (κ σ ℓ : Type)
  | leaf (a : ℓ)
  | empty (k : κ)
  | group (k : κ) (items : Items κ σ ℓ)

/-- One or more terms, with separators between them. -/
inductive Items (κ σ ℓ : Type)
  | last (t : Term κ σ ℓ)
  | more (t : Term κ σ ℓ) (s : σ) (rest : Items κ σ ℓ)

end

/-- Some terms with the same separator between any two. -/
def Items.ofList (s : σ) (t : Term κ σ ℓ) : List (Term κ σ ℓ) → Items κ σ ℓ
  | [] => .last t
  | u :: ts => .more t s (ofList s u ts)

/-- A list of terms between brackets. -/
def Term.ofList (k : κ) (s : σ) : List (Term κ σ ℓ) → Term κ σ ℓ
  | [] => .empty k
  | t :: ts => .group k (.ofList s t ts)

/-- Terms in a row can be read off their items. -/
theorem Items.ofList_inj {s : σ} {t u : Term κ σ ℓ} {ts us : List (Term κ σ ℓ)}
    (h : Items.ofList s t ts = Items.ofList s u us) : t = u ∧ ts = us := by
  induction ts generalizing t u us with
  | nil =>
      cases us with
      | nil => exact ⟨Items.last.inj h, rfl⟩
      | cons v us => cases h
  | cons v ts ih =>
      cases us with
      | nil => cases h
      | cons v' us =>
          obtain ⟨rfl, -, hrest⟩ := Items.more.inj h
          obtain ⟨rfl, rfl⟩ := ih hrest
          exact ⟨rfl, rfl⟩

/-- And off the group of them, the empty one included. -/
theorem Term.ofList_inj {k : κ} {s : σ} {ts us : List (Term κ σ ℓ)}
    (h : Term.ofList k s ts = Term.ofList k s us) : ts = us := by
  cases ts with
  | nil =>
      cases us with
      | nil => rfl
      | cons u us => cases h
  | cons t ts =>
      cases us with
      | nil => cases h
      | cons u us =>
          obtain ⟨rfl, rfl⟩ := Items.ofList_inj (Term.group.inj h).2
          rfl

/-- Pairs of terms, with one separator within a pair and another one between two pairs. -/
def Items.ofPairs (inner outer : σ) (t u : Term κ σ ℓ) :
    List (Term κ σ ℓ × Term κ σ ℓ) → Items κ σ ℓ
  | [] => .more t inner (.last u)
  | (t', u') :: rest => .more t inner (.more u outer (ofPairs inner outer t' u' rest))

/-- A list of pairs between brackets. -/
def Term.ofPairs (k : κ) (inner outer : σ) : List (Term κ σ ℓ × Term κ σ ℓ) → Term κ σ ℓ
  | [] => .empty k
  | (t, u) :: rest => .group k (.ofPairs inner outer t u rest)

/-- So can pairs of terms. -/
theorem Items.ofPairs_inj {inner outer : σ} {t u t' u' : Term κ σ ℓ}
    {ps qs : List (Term κ σ ℓ × Term κ σ ℓ)}
    (h : Items.ofPairs inner outer t u ps = Items.ofPairs inner outer t' u' qs) :
    t = t' ∧ u = u' ∧ ps = qs := by
  induction ps generalizing t u t' u' qs with
  | nil =>
      cases qs with
      | nil =>
          obtain ⟨rfl, -, hrest⟩ := Items.more.inj h
          exact ⟨rfl, Items.last.inj hrest, rfl⟩
      | cons q qs => exact absurd (Items.more.inj h).2.2 (by rintro ⟨⟩)
  | cons p ps ih =>
      cases qs with
      | nil => exact absurd (Items.more.inj h).2.2 (by rintro ⟨⟩)
      | cons q qs =>
          obtain ⟨rfl, -, hpair⟩ := Items.more.inj h
          obtain ⟨rfl, -, hrest⟩ := Items.more.inj hpair
          obtain ⟨hkey, hvalue, rfl⟩ := ih hrest
          exact ⟨rfl, rfl, congrArg (· :: ps) (Prod.ext hkey hvalue)⟩

/-- And pairs off the group of them. -/
theorem Term.ofPairs_inj {k : κ} {inner outer : σ} {ps qs : List (Term κ σ ℓ × Term κ σ ℓ)}
    (h : Term.ofPairs k inner outer ps = Term.ofPairs k inner outer qs) : ps = qs := by
  cases ps with
  | nil =>
      cases qs with
      | nil => rfl
      | cons q qs => cases h
  | cons p ps =>
      cases qs with
      | nil => cases h
      | cons q qs =>
          obtain ⟨hfirst, hsecond, rfl⟩ := Items.ofPairs_inj (Term.group.inj h).2
          exact congrArg (· :: ps) (Prod.ext hfirst hsecond)

/-- How terms are written. -/
structure Spelling (α κ σ ℓ : Type) where
  opening : κ → α
  closing : κ → α
  sep : σ → List α
  leaf : ℓ → List α

namespace Spelling

variable (n : Spelling α κ σ ℓ)

mutual

/-- The text of a term. -/
def text : Term κ σ ℓ → List α
  | .leaf a => n.leaf a
  | .empty k => [n.opening k, n.closing k]
  | .group k items => n.opening k :: (itemsText items ++ [n.closing k])

/-- The text between two brackets. -/
def itemsText : Items κ σ ℓ → List α
  | .last t => text t
  | .more t s rest => text t ++ (n.sep s ++ itemsText rest)

end

mutual

/-- The text of a term, part by part. -/
def pieces : Term κ σ ℓ → List (List α)
  | .leaf a => [n.leaf a]
  | .empty k => [[n.opening k], [n.closing k]]
  | .group k items => [n.opening k] :: (itemsPieces items ++ [[n.closing k]])

/-- The text between two brackets, part by part. -/
def itemsPieces : Items κ σ ℓ → List (List α)
  | .last t => pieces t
  | .more t s rest => pieces t ++ (n.sep s :: itemsPieces rest)

end

mutual

/-- The pieces of a term are its text, cut up. -/
theorem flatten_pieces : (t : Term κ σ ℓ) → (n.pieces t).flatten = n.text t
  | .leaf a => List.append_nil _
  | .empty k => rfl
  | .group k items => by
      rw [pieces, text, List.flatten_cons, List.flatten_append, flatten_itemsPieces items]
      rfl

/-- The same for items. -/
theorem flatten_itemsPieces : (items : Items κ σ ℓ) →
    (n.itemsPieces items).flatten = n.itemsText items
  | .last t => flatten_pieces t
  | .more t s rest => by
      rw [itemsPieces, itemsText, List.flatten_append, List.flatten_cons, flatten_pieces t,
        flatten_itemsPieces rest]

end

/-! ### Lists -/

/-- The text of terms in a row: a separator in front of each but the first. -/
theorem itemsText_ofList (s : σ) (t : Term κ σ ℓ) (ts : List (Term κ σ ℓ)) :
    n.itemsText (.ofList s t ts) = n.text t ++ ts.flatMap fun u => n.sep s ++ n.text u := by
  induction ts generalizing t with
  | nil => exact (List.append_nil _).symm
  | cons u ts ih => rw [Items.ofList, itemsText, ih, List.flatMap_cons, List.append_assoc]

/-- The text of a group that is not empty. -/
theorem text_ofList_cons (k : κ) (s : σ) (t : Term κ σ ℓ) (ts : List (Term κ σ ℓ)) :
    n.text (.ofList k s (t :: ts))
      = [n.opening k] ++ (n.text t ++ ts.flatMap fun u => n.sep s ++ n.text u) ++
          [n.closing k] := by
  rw [Term.ofList, text, itemsText_ofList]
  rfl

/-- The text of pairs in a row, with the inner separator between the two of each. -/
theorem itemsText_ofPairs (inner outer : σ) (t u : Term κ σ ℓ)
    (rest : List (Term κ σ ℓ × Term κ σ ℓ)) :
    n.itemsText (.ofPairs inner outer t u rest)
      = n.text t ++ (n.sep inner ++ (n.text u ++ rest.flatMap fun p =>
          n.sep outer ++ (n.text p.1 ++ (n.sep inner ++ n.text p.2)))) := by
  induction rest generalizing t u with
  | nil => rw [Items.ofPairs, itemsText, itemsText, List.flatMap_nil, List.append_nil]
  | cons p rest ih =>
      rw [Items.ofPairs, itemsText, itemsText, ih, List.flatMap_cons]
      simp only [List.append_assoc]

/-- The text of a group of pairs that is not empty. -/
theorem text_ofPairs_cons (k : κ) (inner outer : σ) (t u : Term κ σ ℓ)
    (rest : List (Term κ σ ℓ × Term κ σ ℓ)) :
    n.text (.ofPairs k inner outer ((t, u) :: rest))
      = [n.opening k] ++ (n.text t ++ (n.sep inner ++ (n.text u ++ rest.flatMap fun p =>
          n.sep outer ++ (n.text p.1 ++ (n.sep inner ++ n.text p.2))))) ++ [n.closing k] := by
  rw [Term.ofPairs, text, itemsText_ofPairs]
  rfl

/-! ### Unique readability -/

/-- What may come behind a leaf. -/
def Ends (r : List α) : Prop :=
  r = [] ∨ (∃ k t, r = n.closing k :: t) ∨ ∃ s t, r = n.sep s ++ t

/-- A leaf stands in front of what may come behind it, and a bracketed term in front of
anything. -/
def Before : Term κ σ ℓ → List α → Prop
  | .leaf _, r => n.Ends r
  | _, _ => True

/-- The spelling tells apart what may stand at the same place. -/
structure Readable : Prop where
  opening : Function.Injective n.opening
  sep {s s' : σ} {r r' : List α} : n.sep s ++ r = n.sep s' ++ r' → s = s'
  leaf {a b : ℓ} {r r' : List α} :
    n.Ends r → n.Ends r' → n.leaf a ++ r = n.leaf b ++ r' → a = b
  sep_closing (s : σ) (k : κ) (r r' : List α) : n.sep s ++ r ≠ n.closing k :: r'
  leaf_opening (a : ℓ) (k : κ) (r r' : List α) : n.leaf a ++ r ≠ n.opening k :: r'
  leaf_closing (a : ℓ) (k : κ) (r r' : List α) : n.leaf a ++ r ≠ n.closing k :: r'
  opening_closing (k k' : κ) : n.opening k ≠ n.closing k'

variable {n}

/-- What may come behind a leaf may come behind any term. -/
theorem before_of_ends {r : List α} (h : n.Ends r) (t : Term κ σ ℓ) : n.Before t r := by
  cases t with
  | leaf a => exact h
  | empty k => trivial
  | group k items => trivial

/-- A group and a rest behind it. -/
theorem text_group_append (k : κ) (items : Items κ σ ℓ) (r : List α) :
    n.text (.group k items) ++ r
      = n.opening k :: (n.itemsText items ++ n.closing k :: r) := by
  rw [text, List.cons_append, List.append_assoc]
  rfl

/-- No term begins with a closing bracket. -/
theorem Readable.text_ne_closing (h : n.Readable) (t : Term κ σ ℓ) (k : κ) (r r' : List α) :
    n.text t ++ r ≠ n.closing k :: r' := by
  cases t with
  | leaf a => exact h.leaf_closing a k r r'
  | empty k' => exact fun heq => h.opening_closing k' k (List.cons.inj heq).1
  | group k' items => exact fun heq => h.opening_closing k' k (List.cons.inj heq).1

/-- No items begin with a closing bracket, so the end of a group is seen at once. -/
theorem Readable.itemsText_ne_closing (h : n.Readable) (items : Items κ σ ℓ) (k : κ)
    (r r' : List α) : n.itemsText items ++ r ≠ n.closing k :: r' := by
  cases items with
  | last t => exact h.text_ne_closing t k r r'
  | more t s rest =>
      rw [itemsText, List.append_assoc]
      exact h.text_ne_closing t k _ r'

mutual

/-- The text of a term says what the term is and where it ends. -/
theorem Readable.text_append_inj (h : n.Readable) : (t u : Term κ σ ℓ) → {r r' : List α} →
    n.Before t r → n.Before u r' → n.text t ++ r = n.text u ++ r' → t = u ∧ r = r'
  | .leaf a, .leaf b, _, _, hr, hr', heq => by
      obtain rfl := h.leaf hr hr' heq
      exact ⟨rfl, List.append_cancel_left heq⟩
  | .leaf a, .empty k, _, _, _, _, heq => absurd heq (h.leaf_opening a k _ _)
  | .leaf a, .group k _, _, _, _, _, heq => absurd heq (h.leaf_opening a k _ _)
  | .empty k, .leaf b, _, _, _, _, heq => absurd heq.symm (h.leaf_opening b k _ _)
  | .group k _, .leaf b, _, _, _, _, heq => absurd heq.symm (h.leaf_opening b k _ _)
  | .empty k, .empty k', _, _, _, _, heq => by
      obtain ⟨hopening, hrest⟩ := List.cons.inj heq
      obtain rfl := h.opening hopening
      exact ⟨rfl, (List.cons.inj hrest).2⟩
  | .empty k, .group k' items, _, _, _, _, heq => by
      -- Behind the bracket the group goes on with a term.
      rw [text_group_append] at heq
      exact absurd (List.cons.inj heq).2.symm (h.itemsText_ne_closing items k _ _)
  | .group k items, .empty k', _, _, _, _, heq => by
      rw [text_group_append] at heq
      exact absurd (List.cons.inj heq).2 (h.itemsText_ne_closing items k' _ _)
  | .group k items, .group k' items', _, _, _, _, heq => by
      rw [text_group_append, text_group_append] at heq
      obtain ⟨hopening, hrest⟩ := List.cons.inj heq
      obtain rfl := h.opening hopening
      obtain ⟨rfl, rfl⟩ := itemsText_append_inj h items items' hrest
      exact ⟨rfl, rfl⟩

/-- The same for what stands between two brackets. -/
theorem Readable.itemsText_append_inj (h : n.Readable) : (items items' : Items κ σ ℓ) →
    {k : κ} → {r r' : List α} →
    n.itemsText items ++ n.closing k :: r = n.itemsText items' ++ n.closing k :: r' →
    items = items' ∧ r = r'
  -- Both sequences end here, and the closing bracket ends both texts.
  | .last t, .last u, k, r, r', heq => by
      have hends (r : List α) : n.Ends (n.closing k :: r) := .inr (.inl ⟨k, r, rfl⟩)
      obtain ⟨rfl, hrest⟩ := text_append_inj h t u (before_of_ends (hends r) t)
        (before_of_ends (hends r') u) heq
      exact ⟨rfl, (List.cons.inj hrest).2⟩
  -- One sequence ends and the other goes on: a separator would be a closing bracket.
  | .last t, .more u s rest, k, r, r', heq => by
      rw [itemsText, itemsText, List.append_assoc, List.append_assoc] at heq
      obtain ⟨rfl, hrest⟩ := text_append_inj h t u (before_of_ends (.inr (.inl ⟨k, r, rfl⟩)) t)
        (before_of_ends (.inr (.inr ⟨s, _, rfl⟩)) u) heq
      exact absurd hrest.symm (h.sep_closing s k _ _)
  | .more t s rest, .last u, k, r, r', heq => by
      rw [itemsText, itemsText, List.append_assoc, List.append_assoc] at heq
      obtain ⟨rfl, hrest⟩ := text_append_inj h t u (before_of_ends (.inr (.inr ⟨s, _, rfl⟩)) t)
        (before_of_ends (.inr (.inl ⟨k, r', rfl⟩)) u) heq
      exact absurd hrest (h.sep_closing s k _ _)
  -- Both go on: the separators are the same, and so are the rests.
  | .more t s rest, .more u s' rest', k, r, r', heq => by
      rw [itemsText, itemsText, List.append_assoc, List.append_assoc, List.append_assoc,
        List.append_assoc] at heq
      obtain ⟨rfl, hsep⟩ := text_append_inj h t u (before_of_ends (.inr (.inr ⟨s, _, rfl⟩)) t)
        (before_of_ends (.inr (.inr ⟨s', _, rfl⟩)) u) heq
      obtain rfl := h.sep hsep
      obtain ⟨rfl, rfl⟩ := itemsText_append_inj h rest rest' (List.append_cancel_left hsep)
      exact ⟨rfl, rfl⟩

end

/-- **A term can be read back** from its text. -/
theorem Readable.text_injective (h : n.Readable) {t u : Term κ σ ℓ} (heq : n.text t = n.text u) :
    t = u := by
  have hnil : n.Ends [] := .inl rfl
  refine (h.text_append_inj t u (before_of_ends hnil t) (before_of_ends hnil u) ?_).1
  rw [List.append_nil, List.append_nil, heq]

end Spelling

/-! ### Leaves without stops -/

/-- The rest is empty or begins with a stop. -/
def StopsAt (stop : α → Prop) (r : List α) : Prop := ∀ c ∈ r.head?, stop c

/-- A word without stops ends at the first stop. -/
theorem append_inj_of_stops {stop : α → Prop} {xs ys r r' : List α} (hxs : ∀ c ∈ xs, ¬ stop c)
    (hys : ∀ c ∈ ys, ¬ stop c) (hr : StopsAt stop r) (hr' : StopsAt stop r')
    (heq : xs ++ r = ys ++ r') : xs = ys ∧ r = r' := by
  induction xs generalizing ys with
  | nil =>
      cases ys with
      | nil => exact ⟨rfl, heq⟩
      | cons y ys =>
          -- The rest would begin with a letter of the other word.
          rw [List.nil_append] at heq
          exact absurd (hr y (by rw [heq]; rfl)) (hys y List.mem_cons_self)
  | cons x xs ih =>
      cases ys with
      | nil =>
          rw [List.nil_append] at heq
          exact absurd (hr' x (by rw [← heq]; rfl)) (hxs x List.mem_cons_self)
      | cons y ys =>
          obtain ⟨rfl, hrest⟩ := List.cons.inj heq
          obtain ⟨rfl, rfl⟩ := ih (fun c hc => hxs c (List.mem_cons_of_mem x hc))
            (fun c hc => hys c (List.mem_cons_of_mem x hc)) hrest
          exact ⟨rfl, rfl⟩

/-! ### Leaves between quotes -/

/-- A word of coded letters ends at the first stop, where a code tells its letter and no code
begins with a stop. -/
theorem flatMap_append_inj {β : Type} {code : β → List α} {stop : α}
    (hcode : ∀ a b r r', code a ++ r = code b ++ r' → a = b)
    (hstop : ∀ a r r', code a ++ r ≠ stop :: r') {xs ys : List β} {r r' : List α}
    (heq : xs.flatMap code ++ stop :: r = ys.flatMap code ++ stop :: r') : xs = ys ∧ r = r' := by
  induction xs generalizing ys with
  | nil =>
      cases ys with
      | nil => exact ⟨rfl, (List.cons.inj heq).2⟩
      | cons y ys =>
          rw [List.flatMap_cons, List.append_assoc] at heq
          exact absurd heq.symm (hstop y _ _)
  | cons x xs ih =>
      cases ys with
      | nil =>
          rw [List.flatMap_cons, List.append_assoc] at heq
          exact absurd heq (hstop x _ _)
      | cons y ys =>
          rw [List.flatMap_cons, List.flatMap_cons, List.append_assoc, List.append_assoc] at heq
          obtain rfl := hcode x y _ _ heq
          obtain ⟨rfl, rfl⟩ := ih (List.append_cancel_left heq)
          exact ⟨rfl, rfl⟩

end Bracketed
