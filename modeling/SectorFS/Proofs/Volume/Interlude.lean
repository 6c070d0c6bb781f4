import SectorFS.Proofs.Volume.Observe
import SectorFS.Proofs.Volume.Reachable

/-!
# Actions that make and remove nothing

Reading, writing, seeking and closing leave the catalog on the disk as it is, and opening does when
it makes no directories on the way. Through any number of such actions the catalog stays laid out,
with the same free map: `Volume.Mounted.interlude`.
-/

namespace SectorFS

/-- The action makes and removes nothing. Before it the paths led to `T`, and after it to `T'`, by
which one can tell whether opening made directories on the way. -/
def Action.Spares (T T' : Namespace) : Action → Prop
  | .request (.create ..) => False
  | .request (.makeDirectory _) => False
  | .request (.remove _) => False
  | .request (.openPath _) => T' = T
  | _ => True

/-- From one volume and disk to the other, actions were carried out that made and removed nothing.
-/
inductive Interlude (volume : Volume) (disk : Disk) : (volume' : Volume) → (disk' : Disk) → Prop
    where
  | none : Interlude volume disk volume disk
  | answer {volume₁ disk₁ action result volume₂ disk₂} : Interlude volume disk volume₁ disk₁ →
      action.Fits → volume₁.act action disk₁ = .ok (result, volume₂) disk₂ →
      action.Spares disk₁.toNamespace disk₂.toNamespace → Interlude volume disk volume₂ disk₂
  | refusal {volume₁ disk₁ action cause disk₂} : Interlude volume disk volume₁ disk₁ →
      action.Fits → volume₁.act action disk₁ = .error (.error cause) disk₂ →
      action.Spares disk₁.toNamespace disk₂.toNamespace → Interlude volume disk volume₁ disk₂

namespace Catalog

open Volume

variable {c : Catalog} {n : Nat} {store : Store} {map : FreeMap} {volume : Volume}
variable {action : Action}

/-- The action ends, and if it made and removed nothing then with the same catalog on the disk. -/
def Settled (c : Catalog) (n : Nat) (store : Store) (map : FreeMap) (volume : Volume)
    (action : Action) : Prop :=
  ∃ result ws c' map', Runs n store (volume.act action) result ws ∧
    c'.LaidOut n (store.after ws) map' ∧ (volume.next result).Over c' n ∧
    (action.Spares c.toNamespace c'.toNamespace → c' = c ∧ map' = map)

theorem Settled.of_same (h : ∃ result ws, Runs n store (volume.act action) result ws ∧
    c.Effect n store volume action result ws c map) : c.Settled n store map volume action := by
  obtain ⟨result, ws, run, effect⟩ := h
  exact ⟨result, ws, c, map, run, effect.laidOut, effect.known, fun _ => ⟨rfl, rfl⟩⟩

theorem Settled.of_quiet (h : ∃ result, Runs n store (volume.act action) result [] ∧
    c.Effect n store volume action result [] c map) : c.Settled n store map volume action := by
  obtain ⟨result, run, effect⟩ := h
  exact .of_same ⟨result, [], run, effect⟩

theorem Settled.of_change (h : ∃ result ws c' map', Runs n store (volume.act action) result ws ∧
    c.Effect n store volume action result ws c' map')
    (changes : ∀ T', ¬ action.Spares c.toNamespace T') : c.Settled n store map volume action := by
  obtain ⟨result, ws, c', map', run, effect⟩ := h
  exact ⟨result, ws, c', map', run, effect.laidOut, effect.known, fun spares =>
    absurd spares (changes _)⟩

/-- Opening makes directories on the way or leaves the catalog as it is. -/
theorem settled_openPath (l : c.LaidOut n store map) (known : volume.Over c n) (path : String) :
    c.Settled n store map volume (.request (.openPath path)) := by
  by_cases absolute : Path.Absolute path
  · rcases tries_openPath (K := fun _ => True) l known absolute with
      ⟨d, run, known', -⟩ | ⟨-, ws, c', map', cause, k, run, grew⟩
    · exact ⟨_, [], c, map, .andThen run (.done _), l, known', fun _ => ⟨rfl, rfl⟩⟩
    · exact ⟨_, ws, c', map', .stop run.runs, grew.laidOut, known.kept grew.kept,
        grew.eq_of_namespace_eq l⟩
  · rcases runs_openPath_relative absolute with run | run
    · exact ⟨_, [], c, map, .stop run, l, known, fun _ => ⟨rfl, rfl⟩⟩
    · exact ⟨_, [], c, map, .stop run, l, known, fun _ => ⟨rfl, rfl⟩⟩

theorem settled_act (l : c.LaidOut n store map) (known : volume.Over c n) (fits : action.Fits) :
    c.Settled n store map volume action := by
  cases action with
  | remount => exact .of_quiet (runs_act_remount l)
  | request request =>
    cases request with
    | create path size => exact .of_change (runs_act_create l known path size) fun _ => id
    | makeDirectory path => exact .of_change (runs_act_makeDirectory l known path) fun _ => id
    | openPath path => exact settled_openPath l known path
    | read id count => exact .of_quiet (runs_act_read l known id count)
    | write id data => exact .of_same (runs_act_write l known id data)
    | seek id position => exact .of_quiet (runs_act_seek l known id fits)
    | length id => exact .of_quiet (runs_act_length l known id)
    | close id => exact .of_quiet (runs_act_close l known id)
    | remove path => exact .of_change (runs_act_remove l known path) fun _ => id
    | list path => exact .of_quiet (runs_act_list l known path)
    | tree path => exact .of_quiet (runs_act_tree l known path)
    | freeCount => exact .of_quiet (runs_act_freeCount l known)
    | dump => exact .of_quiet (runs_act_dump l known)

end Catalog

namespace Volume.Mounted

variable {n : Nat} {c : Catalog} {map : FreeMap} {volume volume' : Volume} {disk disk' : Disk}

/-- An action that makes and removes nothing leaves the volume over the same catalog. -/
theorem act_sparing {action : Action} {result : Except Failure (Answer × Volume)}
    (m : volume.Mounted disk n c map) (fits : action.Fits)
    (ends : volume.act action disk = ending result disk')
    (spares : action.Spares disk.toNamespace disk'.toNamespace) :
    (volume.next result).Mounted disk' n c map := by
  have ⟨sound, l, known⟩ := m
  obtain ⟨result', ws, c', map', run, l', known', same⟩ := Catalog.settled_act l known fits
  obtain ⟨disk'', ends', wrote⟩ := run.ends sound
  obtain ⟨rfl, rfl⟩ := ending_inj (ends.symm.trans ends')
  rw [← wrote.store_eq sound.covers] at l'
  have m' : (volume.next result).Mounted disk' n c' map' := ⟨wrote.sound sound, l', known'⟩
  rw [m.toNamespace_eq, m'.toNamespace_eq] at spares
  obtain ⟨rfl, rfl⟩ := same spares
  exact m'

/-- So do any number of them. -/
theorem interlude (m : volume.Mounted disk n c map)
    (between : Interlude volume disk volume' disk') : volume'.Mounted disk' n c map := by
  induction between with
  | none => exact m
  | @answer volume₁ disk₁ action answer volume₂ disk₂ _ fits ends spares ih =>
    have ends : volume₁.act action disk₁ = ending (.ok (answer, volume₂)) disk₂ := ends
    exact ih.act_sparing fits ends spares
  | @refusal volume₁ disk₁ action cause disk₂ _ fits ends spares ih =>
    have ends : volume₁.act action disk₁ = ending (.error (.error cause)) disk₂ := ends
    exact ih.act_sparing fits ends spares

/-- Only an open that is refused can have made directories. -/
theorem names_of_opened {path : String} {answer : Answer} (m : volume.Mounted disk n c map)
    (opened : volume.act (.request (.openPath path)) disk = .ok (answer, volume') disk') :
    disk'.toNamespace = disk.toNamespace := by
  have ⟨sound, l, known⟩ := m
  have never {e : Failure} {ws : Writes}
      (run : Runs n disk.store (volume.openPath path) (.error e) ws) : False := by
    have act : Runs n disk.store (volume.act (.request (.openPath path))) (.error e) ws := .stop run
    cases (act.of_ended sound opened).1
  by_cases absolute : Path.Absolute path
  · rcases Catalog.tries_openPath (K := fun _ => True) l known absolute with
      ⟨d, run, -⟩ | ⟨-, ws, c', map', cause, k, tries, -⟩
    · have act : Runs n disk.store (volume.act (.request (.openPath path)))
          (.ok (.descriptor volume.nextId, volume.opened d)) [] := .andThen run (.done _)
      have m' := m.of_wrote_nil (act.of_ended sound opened).2
      rw [m.toNamespace_eq, m'.toNamespace_eq]
    · exact (never tries.runs).elim
  · rcases Catalog.runs_openPath_relative absolute with run | run
    · exact (never run).elim
    · exact (never run).elim

end Volume.Mounted

end SectorFS
