import SyntaxDialects.Session.Acts

/-!
Recipes are followed as a whole or not at all. Act by act a recipe ends in the dialect, the
identities and the records of `Store.make`, and one that fails has neither drawn nor recorded
anything; so sessions act by act are the sessions of `Store.run`.
-/
namespace SyntaxDialects

def Trail.settle {ε : Type} (trail : Trail) :
    Except ε (Made × Alloc) → Except ε Dialect × Trail
  | .ok (made, ids) => (.ok made.dialect, ⟨ids, trail.log ++ made.log⟩)
  | .error problem => (.error problem, trail)

theorem Trail.settle_error {ε : Type} {trail left : Trail} {whole : Except ε (Made × Alloc)}
    {problem : ε} (failed : trail.settle whole = (.error problem, left)) : left = trail := by
  cases whole with
  | ok made => cases failed
  | error other =>
    cases failed
    rfl

namespace Acts

variable {ε δ α : Type} {trail : Trail}

theorem run_create (flags : Flags) :
    (create flags : Acts ε Dialect).run trail =
      trail.settle (.ok (⟨⟨⟨trail.ids.next⟩, flags⟩, []⟩, ⟨trail.ids.next + 1⟩)) := by
  rw [Trail.settle, List.append_nil]
  rfl

theorem run_check (checked : Except ε Dialect) :
    (ofExcept checked : Acts ε Dialect).run trail =
      trail.settle (checked >>= fun dialect => pure (⟨dialect, []⟩, trail.ids)) := by
  cases checked with
  | ok dialect =>
    change _ = (_, Trail.mk trail.ids (trail.log ++ []))
    rw [List.append_nil]
    rfl
  | error problem => rfl

theorem run_check_bind (checked : Except ε α) {next : α → Acts ε Dialect}
    {whole : α → Except ε (Made × Alloc)}
    (same : ∀ value, (next value).run trail = trail.settle (whole value)) :
    (ofExcept checked >>= next : Acts ε Dialect).run trail = trail.settle (checked >>= whole) := by
  cases checked with
  | ok value => exact same value
  | error problem => rfl

theorem run_derive (base : Dialect) (change : Flags → Except ε Flags) :
    (derive base change : Acts ε Dialect).run trail =
      trail.settle (change base.flags >>= fun flags =>
        .ok (⟨⟨⟨trail.ids.next⟩, flags⟩, []⟩, ⟨trail.ids.next + 1⟩)) := by
  apply run_check_bind
  intro flags
  exact run_create flags

theorem run_adapt (rename : ε → δ) {acts : Acts ε Dialect} {whole : Except ε (Made × Alloc)}
    (same : acts.run trail = trail.settle whole) :
    (ExceptT.adapt rename acts : Acts δ Dialect).run trail =
      trail.settle (whole.mapError rename) := by
  have adapted : (ExceptT.adapt rename acts : Acts δ Dialect).run trail =
      ((acts.run trail).1.mapError rename, (acts.run trail).2) := rfl
  rw [adapted, same]
  cases whole <;> rfl

end Acts

theorem Unquote.acts_run (kind : Unquote) (base : Dialect) (multiline : Bool) (trail : Trail) :
    (kind.acts base multiline).run trail =
      trail.settle (kind.derive base multiline trail.ids) := by
  unfold Unquote.acts Unquote.derive
  by_cases already : base.flags.allowsUnquotes
  · rw [if_pos already, if_pos already]
    rfl
  · rw [if_neg already, if_neg already]
    rfl

theorem Conf.acts_run (conf : Conf) (trail : Trail) :
    conf.acts.run trail = trail.settle (conf.realize trail.ids) := by
  apply Acts.run_check_bind
  intro base
  rfl

namespace Store

theorem acts_run (store : Store) (recipe : Recipe) (log : List Event) :
    (store.acts recipe).run ⟨store.ids, log⟩ =
      Trail.settle ⟨store.ids, log⟩ (store.make recipe) := by
  cases recipe with
  | standard name => exact Acts.run_check _
  | «alias» of => exact Acts.run_check _
  | new flags => exact Acts.run_create flags
  | derive base set =>
    apply Acts.run_check_bind
    intro base
    apply Acts.run_check_bind
    intro overrides
    exact Acts.run_derive base _
  | vary base change =>
    apply Acts.run_check_bind
    intro base
    exact Acts.run_derive base _
  | unquote kind base multiline =>
    apply Acts.run_check_bind
    intro base
    exact Acts.run_adapt _ (kind.acts_run base multiline _)
  | mustUnquote kind base multiline =>
    apply Acts.run_check_bind
    intro base
    exact Acts.run_adapt _ (kind.acts_run base multiline _)
  | conf text =>
    apply Acts.run_check_bind
    intro conf
    exact Acts.run_adapt _ (conf.acts_run _)
  | resolve base set =>
    apply Acts.run_check_bind
    intro overrides
    exact Acts.run_adapt _ (Conf.acts_run _ _)

theorem enact_eq_step (store : Store) (step : Step) : store.enact step = store.step step := by
  cases step with
  | look what => rfl
  | make recipe slot =>
    rw [enact, acts_run, Store.step]
    cases store.make recipe with
    | ok made => rfl
    | error failure => rfl

theorem enactAll_eq_run (store : Store) (steps : List Step) :
    store.enactAll steps = store.run steps := by
  induction steps generalizing store with
  | nil => rfl
  | cons first rest ih =>
    rw [enactAll, run, enact_eq_step]
    simp only [ih]

end Store

end SyntaxDialects
