import ChannelAsm.Image.Declaration
import ChannelAsm.Proofs.Except

/-!
# The grammar of declarations

`Declaration.Spells` is the grammar of a line of the data section, and `Declaration.Malformed` says
which fault a line shows that is not of that form, the leftmost one when there are several. Every
line is of one of the two kinds, and by `ofWords_cases` reading it says which.
-/

namespace ChannelAsm

/-- The word is a numeral of a 32-bit integer. -/
def IsLiteral (word : String) : Prop :=
  ∃ value, literalValue word = .ok value

/-- Reading a literal fails exactly on a word that is none, and tells the word. -/
theorem literalValue_eq_error_iff {word : String} {fault : Fault} :
    literalValue word = .error fault ↔ ¬ IsLiteral word ∧ fault = .invalidLiteral word := by
  unfold IsLiteral literalValue
  dsimp only
  split <;> simp [eq_comm]

/-- The words that are no literal are those that a literal's fault tells. -/
theorem not_isLiteral_iff {word : String} :
    ¬ IsLiteral word ↔ literalValue word = .error (.invalidLiteral word) := by
  rw [literalValue_eq_error_iff]
  exact (and_iff_left rfl).symm

/-- A word spells `db` exactly when it is that method's spelling, and likewise for `equ`; any other
word spells no storage method. -/
theorem Storage.ofWord?_eq_none_iff {word : String} :
    ofWord? word = none ↔ word ≠ "db" ∧ word ≠ "equ" := by
  rw [ofWord?, List.find?_eq_none]
  simp [Storage.word, eq_comm]

namespace Declaration

/-- `Spells words declaration` says that the words of a line make the declaration. -/
inductive Spells : List String → Declaration → Prop where
  | block {name : String} {arguments : List String} {values : List Int32} :
      List.Forall₂ (fun word value => literalValue word = .ok value) arguments values →
      Spells (name :: "db" :: arguments) (.block name values)
  | lengthOf (name target : String) (rest : List String) :
      Spells (name :: "equ" :: "$" :: "-" :: target :: rest) (.lengthOf name target)

/-- `Malformed words fault` says that the words of a line make no declaration, and which fault they
show first. -/
inductive Malformed : List String → Fault → Prop where
  | short {words : List String} :
      words.length < 2 → Malformed words .invalidDeclaration
  | method {name method : String} {arguments : List String} :
      method ≠ "db" → method ≠ "equ" →
      Malformed (name :: method :: arguments) (.unknownStorageMethod method)
  | literal {name token : String} {before after : List String} :
      (∀ word ∈ before, IsLiteral word) → ¬ IsLiteral token →
      Malformed (name :: "db" :: (before ++ token :: after)) (.invalidLiteral token)
  | form {name : String} {arguments : List String} :
      (∀ target rest, arguments ≠ "$" :: "-" :: target :: rest) →
      Malformed (name :: "equ" :: arguments) .invalidEquSyntax

/-- Reading a line whose second word is `db` reads literals. -/
theorem ofWords_db (name : String) (arguments : List String) :
    ofWords (name :: "db" :: arguments) =
      (arguments.mapM literalValue).map (.block name) :=
  rfl

/-- Reading a line whose second word is `equ` takes the target behind `$` and `-`. -/
theorem ofWords_equ (name target : String) (rest : List String) :
    ofWords (name :: "equ" :: "$" :: "-" :: target :: rest) = .ok (.lengthOf name target) :=
  rfl

/-- Reading a line whose second word is `equ` fails when there is no target behind `$` and `-`. -/
theorem ofWords_equ_of_ne {name : String} {arguments : List String}
    (h : ∀ target rest, arguments ≠ "$" :: "-" :: target :: rest) :
    ofWords (name :: "equ" :: arguments) = .error .invalidEquSyntax := by
  have hmethod : Storage.ofWord? "equ" = some .equ := by decide
  simp only [ofWords, hmethod]

/-- Reading a line whose second word is no storage method tells that word. -/
theorem ofWords_of_ne {name method : String} {arguments : List String} (hdb : method ≠ "db")
    (hequ : method ≠ "equ") :
    ofWords (name :: method :: arguments) = .error (.unknownStorageMethod method) := by
  simp only [ofWords, Storage.ofWord?_eq_none_iff.mpr ⟨hdb, hequ⟩]

/-- Every line either spells a declaration or is malformed, and reading it says which. -/
theorem ofWords_cases (words : List String) :
    (∃ declaration, Spells words declaration ∧ ofWords words = .ok declaration) ∨
      ∃ fault, Malformed words fault ∧ ofWords words = .error fault := by
  -- The cases follow the order in which a line is read: its length, its method, its arguments.
  match words with
  | [] => exact .inr ⟨_, .short (by simp), rfl⟩
  | [_] => exact .inr ⟨_, .short (by simp), rfl⟩
  | name :: method :: arguments =>
      by_cases hdb : method = "db"
      · subst hdb
        cases hvalues : arguments.mapM literalValue with
        | ok values =>
            refine .inl ⟨_, .block (mapM_eq_ok_iff.mp hvalues), ?_⟩
            rw [ofWords_db, hvalues]
            rfl
        | error fault =>
            obtain ⟨before, token, after, rfl, hbefore, hread⟩ := mapM_eq_error_iff.mp hvalues
            obtain ⟨htoken, rfl⟩ := literalValue_eq_error_iff.mp hread
            refine .inr ⟨_, .literal hbefore htoken, ?_⟩
            rw [ofWords_db, hvalues]
            rfl
      by_cases hequ : method = "equ"
      · subst hequ
        by_cases hform : ∃ target rest, arguments = "$" :: "-" :: target :: rest
        · obtain ⟨target, rest, rfl⟩ := hform
          exact .inl ⟨_, .lengthOf name target rest, ofWords_equ name target rest⟩
        · have hform : ∀ target rest, arguments ≠ "$" :: "-" :: target :: rest :=
            fun target rest h => hform ⟨target, rest, h⟩
          exact .inr ⟨_, .form hform, ofWords_equ_of_ne hform⟩
      exact .inr ⟨_, .method hdb hequ, ofWords_of_ne hdb hequ⟩

/-- Reading a line agrees with the grammar. -/
theorem ofWords_of_spells {words : List String} {declaration : Declaration}
    (h : Spells words declaration) : ofWords words = .ok declaration := by
  cases h with
  | block h => rw [ofWords_db, mapM_eq_ok_iff.mpr h]; rfl
  | lengthOf name target rest => exact ofWords_equ name target rest

/-- Reading a malformed line gives the fault that it shows first. -/
theorem ofWords_of_malformed {words : List String} {fault : Fault} (h : Malformed words fault) :
    ofWords words = .error fault := by
  cases h with
  | short h =>
      match words, h with
      | [], _ => rfl
      | [_], _ => rfl
  | method hdb hequ => exact ofWords_of_ne hdb hequ
  | @literal name token before after hbefore htoken =>
      have hvalues : (before ++ token :: after).mapM literalValue =
          .error (.invalidLiteral token) :=
        mapM_eq_error_iff.mpr ⟨before, token, after, rfl, hbefore, not_isLiteral_iff.mp htoken⟩
      rw [ofWords_db, hvalues]
      rfl
  | form h => exact ofWords_equ_of_ne h

/-- Reading a line succeeds exactly with the declaration that it spells. -/
theorem ofWords_eq_ok_iff {words : List String} {declaration : Declaration} :
    ofWords words = .ok declaration ↔ Spells words declaration := by
  refine ⟨fun h => ?_, ofWords_of_spells⟩
  rcases ofWords_cases words with ⟨other, hspells, hother⟩ | ⟨fault, _, hfault⟩
  · rw [h] at hother
    exact Except.ok.inj hother ▸ hspells
  · rw [h] at hfault
    cases hfault

/-- Lines spell one row of declarations only. -/
theorem spells_unique {Item : Type} {words : Item → List String} {items : List Item}
    {declarations others : List Declaration}
    (h : List.Forall₂ (fun item declaration => Spells (words item) declaration) items declarations)
    (hothers : List.Forall₂ (fun item declaration => Spells (words item) declaration) items
      others) :
    declarations = others := by
  have hread {declarations : List Declaration}
      (h : List.Forall₂ (fun item declaration => Spells (words item) declaration) items
        declarations) : items.mapM (fun item => ofWords (words item)) = .ok declarations :=
    mapM_eq_ok_iff.mpr (h.imp fun _ _ => ofWords_of_spells)
  exact Except.ok.inj ((hread h).symm.trans (hread hothers))

end Declaration

end ChannelAsm
