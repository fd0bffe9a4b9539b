import AutoTune.Recipe.Pieces

/-!
# One flag of a list, edited in place

`setFlag` goes through the list item by item. In pieces it drops those that stand for the key and puts
what is written where the last of them stood, or at the end of the list where none did.
-/

namespace AutoTune

open Lib

/-! ## Going through the list -/

section Walk

variable {α : Type}

/-- The loop over the items: `here` says where the new items go, `gone` which items are dropped. -/
def walk (here gone : Nat → Bool) (new items : List α) (i : Nat) : List α :=
  (items.zipIdx i).flatMap fun x => (if here x.2 then new else []) ++ (if gone x.2 then [] else [x.1])

theorem walk_append (here gone : Nat → Bool) (new xs ys : List α) (i : Nat) :
    walk here gone new (xs ++ ys) i = walk here gone new xs i ++ walk here gone new ys (i + xs.length) := by
  unfold walk
  rw [List.zipIdx_append, List.flatMap_append]

theorem walk_cons (here gone : Nat → Bool) (new : List α) (x : α) (xs : List α) (i : Nat) :
    walk here gone new (x :: xs) i =
      (if here i then new else []) ++ (if gone i then [] else [x]) ++ walk here gone new xs (i + 1) := by
  unfold walk
  rw [List.zipIdx_cons, List.flatMap_cons]

/-- Items that are all dropped or all kept. -/
theorem walk_same {here gone : Nat → Bool} (new : List α) {xs : List α} {i : Nat} (b : Bool)
    (h : ∀ j, i ≤ j → j < i + xs.length → here j = false ∧ gone j = b) :
    walk here gone new xs i = if b then [] else xs := by
  induction xs generalizing i with
  | nil => simp [walk]
  | cons x xs ih =>
      rcases h i (Nat.le_refl i) (by simp) with ⟨hhere, hgone⟩
      have hrest := ih (i := i + 1) fun j hj hj' => h j (by omega) (by rw [List.length_cons]; omega)
      rw [walk_cons, hrest, hhere, hgone]
      cases b with
      | true => rfl
      | false => rfl

/-- Items that are all dropped, with the new ones in their place. -/
theorem walk_instead {here gone : Nat → Bool} (new : List α) {xs : List α} {i : Nat} (hxs : 0 < xs.length)
    (hhere : ∀ j, i ≤ j → here j = decide (i = j)) (hgone : ∀ j, i ≤ j → j < i + xs.length → gone j = true) :
    walk here gone new xs i = new := by
  cases xs with
  | nil => exact absurd hxs (Nat.lt_irrefl 0)
  | cons x xs =>
      have hrest : walk here gone new xs (i + 1) = [] := by
        refine walk_same new true fun j hj hj' => ⟨?_, hgone j (by omega) (by rw [List.length_cons]; omega)⟩
        rw [hhere j (by omega), decide_eq_false_iff_not]
        omega
      rw [walk_cons, hrest, hhere i (Nat.le_refl i), hgone i (Nat.le_refl i) (by simp)]
      simp

end Walk

section EditInPlace

variable {F : Type} [PyRuntime F]

/-! ## What a piece stands for -/

/-- What a piece reads as, under its canonical key. -/
def ArgPiece.entry (engine : String) (p : ArgPiece F) : Option (String × Json F) := (p.arg 0).map (typedEntry engine)

/-- Is the piece an occurrence of the key? -/
def ArgPiece.standsFor (engine key : String) (p : ArgPiece F) : Bool := (p.entry engine).any fun e => e.1 = key

/-- The entries a row of pieces reads as. -/
def entries (engine : String) (ps : List (ArgPiece F)) : List (String × Json F) := ps.filterMap (ArgPiece.entry engine)

/-- It makes no difference where a piece stands. -/
theorem entry_arg (engine : String) (p : ArgPiece F) (i : Nat) : (p.arg i).map (typedEntry engine) = p.entry engine := by
  cases p with
  | eq _ _ _ => rfl
  | space _ _ _ _ => rfl
  | pair _ _ _ _ _ _ => rfl
  | switch _ _ _ _ => rfl
  | stray _ _ => rfl

theorem map_argsAt (engine : String) (ps : List (ArgPiece F)) (i : Nat) :
    (argsAt i ps).map (typedEntry engine) = entries engine ps := by
  induction ps generalizing i with
  | nil => rfl
  | cons p ps ih =>
      have hp := entry_arg engine p i
      rw [argsAt, List.map_append, ih]
      unfold entries
      rw [List.filterMap_cons, ← hp]
      cases p.arg i with
      | none => rfl
      | some arg => rfl

/-- The flags of a list are the entries of its pieces, the last under a key counting. -/
theorem argFlags_pieces (engine : String) (items : List (Json F)) (key : String) :
    dictGet (argFlags engine items) key = lastUnder key (entries engine (pieces items)) := by
  rw [argFlags_scan, scan, scanFrom_pieces, map_argsAt]

theorem entries_append (engine : String) (ps qs : List (ArgPiece F)) :
    entries engine (ps ++ qs) = entries engine ps ++ entries engine qs := List.filterMap_append

/-! ## Places -/

/-- The flag of a piece reaches over its items. -/
theorem arg_reach {p : ArgPiece F} {i : Nat} {arg : Arg} (h : p.arg i = some arg) :
    arg.start = i ∧ arg.start + arg.width = i + p.items.length := by
  cases p with
  | eq _ _ _ => cases h; exact ⟨rfl, rfl⟩
  | space _ _ _ _ => cases h; exact ⟨rfl, rfl⟩
  | pair _ _ _ _ _ _ => cases h; exact ⟨rfl, rfl⟩
  | switch _ _ _ _ => cases h; exact ⟨rfl, rfl⟩
  | stray _ _ => cases h

theorem items_pos (p : ArgPiece F) : 0 < p.items.length := by
  cases p with
  | eq _ _ _ => exact Nat.one_pos
  | space _ _ _ _ => exact Nat.one_pos
  | pair _ _ _ _ _ _ => exact Nat.two_pos
  | switch _ _ _ _ => exact Nat.one_pos
  | stray _ _ => exact Nat.one_pos

theorem argsAt_append (ps qs : List (ArgPiece F)) (i : Nat) :
    argsAt i (ps ++ qs) = argsAt i ps ++ argsAt (i + (ps.flatMap ArgPiece.items).length) qs := by
  induction ps generalizing i with
  | nil => rfl
  | cons p ps ih =>
      rw [List.cons_append, argsAt, argsAt, ih, List.append_assoc, List.flatMap_cons, List.length_append,
        Nat.add_assoc]

/-- The flags of a row lie within it. -/
theorem argsAt_within {ps : List (ArgPiece F)} {i : Nat} {arg : Arg} (h : arg ∈ argsAt i ps) :
    i ≤ arg.start ∧ arg.start + arg.width ≤ i + (ps.flatMap ArgPiece.items).length := by
  induction ps generalizing i with
  | nil => cases h
  | cons p ps ih =>
      rw [argsAt, List.mem_append, Option.mem_toList] at h
      rw [List.flatMap_cons, List.length_append]
      rcases h with h | h
      · have hreach := arg_reach h
        omega
      · have hrest := ih h
        omega

/-- Does one of the flags reach over the place? -/
def covered (found : List Arg) (i : Nat) : Bool := found.any fun arg => arg.start ≤ i && i < arg.start + arg.width

/-- The flags of a row that stand for the key. -/
def foundAt (engine key : String) (i : Nat) (ps : List (ArgPiece F)) : List Arg :=
  (argsAt i ps).filter fun arg => (arg.canonical (F := F) engine).1 = key

theorem positions_pieces (engine : String) (items : List (Json F)) (key : String) :
    positions engine items key = foundAt engine key 0 (pieces items) := by
  rw [positions, scan, scanFrom_pieces, foundAt]

theorem foundAt_append (engine key : String) (ps qs : List (ArgPiece F)) (i : Nat) :
    foundAt engine key i (ps ++ qs) =
      foundAt engine key i ps ++ foundAt engine key (i + (ps.flatMap ArgPiece.items).length) qs := by
  rw [foundAt, argsAt_append, List.filter_append, foundAt, foundAt]

/-- A piece is found where it stands for the key. -/
theorem foundAt_cons (engine key : String) (p : ArgPiece F) (ps : List (ArgPiece F)) (i : Nat) :
    foundAt engine key i (p :: ps) =
      (if p.standsFor engine key then (p.arg i).toList else []) ++ foundAt engine key (i + p.items.length) ps := by
  unfold foundAt ArgPiece.standsFor
  rw [argsAt, List.filter_append, ← entry_arg engine p i]
  refine congrArg (· ++ _) ?_
  cases p.arg i with
  | none => rfl
  | some arg =>
      change List.filter _ [arg] = if decide ((arg.canonical (F := F) engine).1 = key) = true then [arg] else []
      by_cases hkey : (arg.canonical (F := F) engine).1 = key
      · simp [hkey]
      · simp [hkey]

theorem foundAt_none {engine key : String} {ps : List (ArgPiece F)}
    (h : ∀ p ∈ ps, p.standsFor engine key = false) (i : Nat) : foundAt engine key i ps = [] := by
  induction ps generalizing i with
  | nil => rfl
  | cons p ps ih =>
      have hp := h p List.mem_cons_self
      rw [foundAt_cons, ih (fun q hq => h q (List.mem_cons_of_mem p hq)), hp]
      rfl

theorem covered_append (found found' : List Arg) (i : Nat) :
    covered (found ++ found') i = (covered found i || covered found' i) := by
  simp [covered]

/-- No place outside a row is covered by it. -/
theorem covered_outside (engine key : String) {ps : List (ArgPiece F)} {i j : Nat}
    (h : j < i ∨ i + (ps.flatMap ArgPiece.items).length ≤ j) : covered (foundAt engine key i ps) j = false := by
  unfold covered
  rw [List.any_eq_false]
  intro arg harg hcov
  have hwithin := argsAt_within (List.mem_filter.mp harg).1
  simp only [Bool.and_eq_true, decide_eq_true_eq] at hcov
  omega

/-- Every place of a piece is covered where it stands for the key. -/
theorem covered_piece (engine key : String) {p : ArgPiece F} {i j : Nat} (hi : i ≤ j) (hj : j < i + p.items.length) :
    covered (if p.standsFor engine key then (p.arg i).toList else []) j = p.standsFor engine key := by
  cases hkey : p.standsFor engine key with
  | false => rfl
  | true =>
      cases harg : p.arg i with
      | none =>
          -- a piece without a flag stands for nothing
          have hentry := entry_arg engine p i
          rw [harg] at hentry
          simp [ArgPiece.standsFor, ← hentry] at hkey
      | some arg =>
          have hreach := arg_reach harg
          have hcov : arg.start ≤ j ∧ j < arg.start + arg.width := by omega
          simp [covered, hcov]

/-! ## The walk over the pieces -/

/-- A row the new items do not go to: what stands for the key is dropped. -/
theorem walk_pieces (engine key : String) {here gone : Nat → Bool} (new : List (Json F)) {ps : List (ArgPiece F)}
    {i : Nat} (hhere : ∀ j, i ≤ j → j < i + (ps.flatMap ArgPiece.items).length → here j = false)
    (hgone : ∀ j, i ≤ j → j < i + (ps.flatMap ArgPiece.items).length → gone j = covered (foundAt engine key i ps) j) :
    walk here gone new (ps.flatMap ArgPiece.items) i =
      (ps.filter fun p => !p.standsFor engine key).flatMap ArgPiece.items := by
  induction ps generalizing i with
  | nil => rfl
  | cons p ps ih =>
      rw [List.flatMap_cons, List.length_append] at hhere hgone
      have hfirst : walk here gone new p.items i = if p.standsFor engine key then [] else p.items := by
        refine walk_same new _ fun j hj hj' => ⟨hhere j hj (by omega), ?_⟩
        rw [hgone j hj (by omega), foundAt_cons, covered_append, covered_piece engine key hj hj',
          covered_outside engine key (Or.inl hj'), Bool.or_false]
      have hrest := ih (i := i + p.items.length) (fun j hj hj' => hhere j (by omega) (by omega)) fun j hj hj' => by
        have hbefore : covered (if p.standsFor engine key then (p.arg i).toList else []) j = false := by
          have hone : covered (foundAt engine key i [p]) j = false :=
            covered_outside engine key (Or.inr (by simpa using hj))
          rwa [foundAt_cons, foundAt_none (fun q hq => absurd hq List.not_mem_nil), List.append_nil] at hone
        rw [hgone j (by omega) (by omega), foundAt_cons, covered_append, hbefore, Bool.false_or]
      rw [List.flatMap_cons, walk_append, hfirst, hrest]
      cases hkey : p.standsFor engine key with
      | true => simp [hkey]
      | false => simp [hkey]

/-! ## `set_flag` in pieces -/

/-- What `set_flag` writes, in the spelling of a flag that is there. -/
def written (engine key : String) (value : Json F) (like : Option Arg) : List (Json F) :=
  let replacement : Option (List (Json F)) := match value with
    | .null => none
    | _ => (rendered engine key value like).map fun items => items.map Json.str
  replacement.getD []

/-- The bare flag that says a switch is on, or off. -/
def bareFlag (engine key : String) (like : Option Arg) : Bool → Option String
  | true =>
      match like with
      | some arg =>
          some (if !startsWith arg.flag "--no-" && arg.raw.isNone then arg.flag else renderFlag engine key)
      | none => some (renderFlag engine key)
  | false => negatedFlag engine key

/-- The flag a value is written with. -/
def valueFlag (engine key : String) (like : Option Arg) : String :=
  match like with
  | some arg => if startsWith arg.flag "--no-" then renderFlag engine key else arg.flag
  | none => renderFlag engine key

/-- A flag with its value, in one of the spellings. -/
def spelled (flag text : String) : Option ArgForm → List String
  | some .pair => [flag, text]
  | some .space => [flag ++ " " ++ text]
  | _ => [flag ++ "=" ++ text]

theorem written_bool (engine key : String) (like : Option Arg) (b : Bool) :
    written (F := F) engine key (.bool b) like = (bareFlag engine key like b).toList.map Json.str := by
  cases b with
  | false =>
      unfold written rendered bareFlag
      cases negatedFlag engine key with
      | none => rfl
      | some flag => rfl
  | true =>
      cases like with
      | none => rfl
      | some arg =>
          unfold written rendered bareFlag
          cases hno : startsWith arg.flag "--no-" with
          | true => simp [Option.filter, hno]
          | false =>
              cases hraw : arg.raw with
              | none => simp [Option.filter, hno, hraw]
              | some raw => simp [Option.filter, hno, hraw]

theorem written_value (engine key : String) (like : Option Arg) {value : Json F} (hnull : value ≠ .null)
    (hbool : ∀ b, value ≠ .bool b) :
    written engine key value like =
      (spelled (valueFlag engine key like) (fmt value) (like.map Arg.form)).map Json.str := by
  have hflag : ((like.filter fun arg => !startsWith arg.flag "--no-").map Arg.flag).getD (renderFlag engine key) =
      valueFlag engine key like := by
    cases like with
    | none => rfl
    | some arg =>
        unfold valueFlag
        cases hno : startsWith arg.flag "--no-" with
        | true => simp [Option.filter, hno]
        | false => simp [Option.filter, hno]
  have hrendered : rendered engine key value like =
      some (spelled (valueFlag engine key like) (fmt value) (like.map Arg.form)) := by
    rw [← hflag]
    unfold rendered
    cases value with
    | null => exact absurd rfl hnull
    | bool b => exact absurd rfl (hbool b)
    | int _ | float _ | str _ | list _ | dict _ =>
        -- only the form decides how the flag and the text are put together
        dsimp only
        cases like.map Arg.form with
        | none => rfl
        | some form =>
            cases form with
            | eq => rfl
            | space => rfl
            | pair => rfl
            | switch => rfl
  unfold written
  rw [hrendered]
  cases value with
  | null => exact absurd rfl hnull
  | bool b => exact absurd rfl (hbool b)
  | int _ | float _ | str _ | list _ | dict _ => rfl

/-- A `null` writes nothing. -/
theorem written_null (engine key : String) (like : Option Arg) : written (F := F) engine key .null like = [] := rfl

/-- The last occurrence of a key. -/
def lastFlag (engine : String) (items : List (Json F)) (key : String) : Option Arg :=
  (positions engine items key).getLast?

theorem setFlag_walk (engine : String) (items : List (Json F)) (key : String) (value : Json F) :
    setFlag engine items key value =
      walk (fun i => (lastFlag engine items key).any fun arg => arg.start = i)
          (covered (positions engine items key)) (written engine key value (lastFlag engine items key)) items 0 ++
        if (lastFlag engine items key).isNone then written engine key value none else [] := by
  have hout : setFlag engine items key value =
      match lastFlag engine items key with
      | some _ => walk (fun i => (lastFlag engine items key).any fun arg => arg.start = i)
          (covered (positions engine items key)) (written engine key value (lastFlag engine items key)) items 0
      | none => walk (fun i => (lastFlag engine items key).any fun arg => arg.start = i)
          (covered (positions engine items key)) (written engine key value (lastFlag engine items key)) items 0 ++
            written engine key value (lastFlag engine items key) := rfl
  rw [hout]
  cases lastFlag engine items key with
  | none => rfl
  | some arg => exact (List.append_nil _).symm

/-- Where no piece stands for the key, what is written goes to the end. -/
theorem setFlag_absent {engine key : String} {items : List (Json F)}
    (h : ∀ p ∈ pieces items, p.standsFor engine key = false) (value : Json F) :
    setFlag engine items key value = items ++ written engine key value none := by
  have hnone : positions engine items key = [] := by rw [positions_pieces, foundAt_none h]
  have hlast : lastFlag engine items key = none := by rw [lastFlag, hnone]; rfl
  have hwalk : walk (fun i => (none : Option Arg).any fun arg => decide (arg.start = i)) (covered [])
      (written engine key value none) items 0 = items := walk_same _ false fun _ _ _ => ⟨rfl, rfl⟩
  rw [setFlag_walk, hlast, hnone, hwalk]
  rfl

/-- A piece that stands for a key is a flag. -/
theorem arg_of_standsFor {engine key : String} {p : ArgPiece F} (hp : p.standsFor engine key = true) (i : Nat) :
    ∃ arg, p.arg i = some arg := by
  rw [ArgPiece.standsFor, ← entry_arg engine p i] at hp
  cases harg : p.arg i with
  | none => simp [harg] at hp
  | some arg => exact ⟨arg, rfl⟩

section Present

variable {engine key : String} {items : List (Json F)} {ps qs : List (ArgPiece F)} {p : ArgPiece F}

theorem positions_present (hpieces : pieces items = ps ++ p :: qs) (hp : p.standsFor engine key = true)
    (hqs : ∀ q ∈ qs, q.standsFor engine key = false) :
    positions engine items key =
      foundAt engine key 0 ps ++ (p.arg (ps.flatMap ArgPiece.items).length).toList := by
  rw [positions_pieces, hpieces, foundAt_append, foundAt_cons, if_pos hp, foundAt_none hqs, List.append_nil,
    Nat.zero_add]

/-- The last piece that stands for the key is the last occurrence. -/
theorem lastFlag_present (hpieces : pieces items = ps ++ p :: qs) (hp : p.standsFor engine key = true)
    (hqs : ∀ q ∈ qs, q.standsFor engine key = false) :
    lastFlag engine items key = p.arg (ps.flatMap ArgPiece.items).length := by
  rcases arg_of_standsFor hp (ps.flatMap ArgPiece.items).length with ⟨arg, harg⟩
  rw [lastFlag, positions_present hpieces hp hqs, harg, List.getLast?_append]
  rfl

/-- Where a piece stands for the key, what is written takes the place of the last that does, and the others
are dropped. -/
theorem setFlag_present (hpieces : pieces items = ps ++ p :: qs) (hp : p.standsFor engine key = true)
    (hqs : ∀ q ∈ qs, q.standsFor engine key = false) (value : Json F) :
    setFlag engine items key value =
      (ps.filter fun q => !q.standsFor engine key).flatMap ArgPiece.items ++
        written engine key value (lastFlag engine items key) ++ qs.flatMap ArgPiece.items := by
  -- the pieces before, the last occurrence, and the pieces behind it, each at its place
  obtain ⟨place, hplace⟩ : ∃ place, (ps.flatMap ArgPiece.items).length = place := ⟨_, rfl⟩
  have hpositions := positions_present hpieces hp hqs
  have hlast := lastFlag_present hpieces hp hqs
  rcases arg_of_standsFor hp place with ⟨arg, harg⟩
  have hreach := arg_reach harg
  rw [hplace, harg] at hpositions hlast
  have hitems : items = ps.flatMap ArgPiece.items ++ (p.items ++ qs.flatMap ArgPiece.items) := by
    have hall := pieces_items items
    rwa [hpieces, List.flatMap_append, List.flatMap_cons, eq_comm] at hall
  have hcovered : ∀ j, covered (positions engine items key) j =
      (covered (foundAt engine key 0 ps) j || (decide (place ≤ j) && decide (j < place + p.items.length))) := by
    intro j
    rw [hpositions, covered_append]
    simp [covered, hreach.1, ← hreach.2]
  have hhere : ∀ j, ((some arg).any fun arg => decide (arg.start = j)) = decide (place = j) := by
    intro j
    simp [hreach.1]
  rw [setFlag_walk, hlast]
  generalize written engine key value (some arg) = new
  have hbefore : walk (fun j => (some arg).any fun arg => decide (arg.start = j))
      (covered (positions engine items key)) new (ps.flatMap ArgPiece.items) 0 =
        (ps.filter fun q => !q.standsFor engine key).flatMap ArgPiece.items := by
    refine walk_pieces engine key new (fun j _ hj => ?_) fun j _ hj => ?_
    · simp only [hhere, decide_eq_false_iff_not]
      omega
    · have hout : ¬ place ≤ j := by omega
      simp [hcovered, hout]
  have hinstead : walk (fun j => (some arg).any fun arg => decide (arg.start = j))
      (covered (positions engine items key)) new p.items place = new := by
    refine walk_instead new (items_pos p) (fun j _ => hhere j) fun j hj hj' => ?_
    simp [hcovered, hj, hj']
  have hbehind : walk (fun j => (some arg).any fun arg => decide (arg.start = j))
      (covered (positions engine items key)) new (qs.flatMap ArgPiece.items) (place + p.items.length) =
        qs.flatMap ArgPiece.items := by
    refine walk_same new false fun j hj _ => ⟨?_, ?_⟩
    · simp only [hhere, decide_eq_false_iff_not]
      have hsome : 0 < p.items.length := items_pos p
      omega
    · have hfirst : covered (foundAt engine key 0 ps) j = false := covered_outside engine key (Or.inr (by omega))
      have hout : ¬ j < place + p.items.length := by omega
      simp [hcovered, hfirst, hout]
  have hwhole : walk (fun j => (some arg).any fun arg => decide (arg.start = j))
      (covered (positions engine items key)) new items 0 =
        (ps.filter fun q => !q.standsFor engine key).flatMap ArgPiece.items ++
          (new ++ qs.flatMap ArgPiece.items) := by
    rw [hitems, walk_append, walk_append, Nat.zero_add, ← hitems, hplace, hbefore, hinstead, hbehind]
  rw [hwhole, ← List.append_assoc]
  exact List.append_nil _

end Present

/-! ## What an edit is not to touch -/

/-- The items that belong to no occurrence of the key. -/
def untouched (engine : String) (items : List (Json F)) (key : String) : List (Json F) :=
  (items.zipIdx.filter fun x => !covered (positions engine items key) x.2).map Prod.fst

theorem untouched_pieces (engine : String) (items : List (Json F)) (key : String) :
    untouched engine items key =
      ((pieces items).filter fun p => !p.standsFor engine key).flatMap ArgPiece.items := by
  have hwalk : untouched engine items key =
      walk (fun _ => false) (covered (positions engine items key)) [] items 0 := by
    unfold untouched walk
    induction items.zipIdx with
    | nil => rfl
    | cons x xs ih =>
        cases hx : covered (positions engine items key) x.2 with
        | true => simpa [hx] using ih
        | false => simpa [hx] using ih
  have hall := pieces_items items
  have hpieces : walk (fun _ => false) (covered (positions engine items key)) [] ((pieces items).flatMap ArgPiece.items) 0 =
      ((pieces items).filter fun p => !p.standsFor engine key).flatMap ArgPiece.items :=
    walk_pieces engine key [] (fun _ _ _ => rfl) fun j _ _ => by rw [positions_pieces]
  rw [hwalk, ← hpieces, hall]

end EditInPlace

end AutoTune
