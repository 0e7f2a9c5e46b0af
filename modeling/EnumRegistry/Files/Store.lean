import EnumRegistry.Files.Failure

/-!
Access to files by path. A store may be a tree of files or the machine's own file system.
-/

namespace EnumRegistry

structure FileStore (m : Type → Type) where
  read : String → m (Except FileFailure (List UInt8))
  /-- Writes a whole file, after making the directories on its way. -/
  write : String → String → m (Except FileFailure Unit)

end EnumRegistry
