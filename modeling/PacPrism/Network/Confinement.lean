import PacPrism.Network.PlainRouter

/-!
# Network/Confinement — which requests stay inside the cache directory

`get_cache_path` removes one leading slash and joins.  What is left may be absolute again or climb
out of the cache directory, and the file served, or written, is then any file of the machine.
-/

namespace PacPrism

/-- The path of a request's file, once resolved, is the cache directory followed by zero or more
ordinary components. -/
def StaysInside (cache : FileCache) (requestPath : Bytes) : Prop :=
  (Path.lexicallyNormal cache.cacheDir).Within
    (Path.lexicallyNormal (cache.getCachePath requestPath))

instance (cache : FileCache) (requestPath : Bytes) : Decidable (StaysInside cache requestPath) :=
  inferInstanceAs (Decidable (Path.Normal.Within _ _))

theorem staysInside_iff (cache : FileCache) (requestPath : Bytes) :
    StaysInside cache requestPath
      ↔ Path.Confined cache.cacheDir (FileCache.cleanPath requestPath) :=
  Path.within_join_iff _ _

/-- **Which plain requests stay inside the cache directory**: those whose path, less one leading
slash, is confined to it. -/
theorem plainRequest_staysInside_iff (cache : FileCache) (target : Bytes) :
    (∀ requestPath, plainRequestPath target = some requestPath → StaysInside cache requestPath)
      ↔ ∀ requestPath, plainRequestPath target = some requestPath →
          Path.Confined cache.cacheDir (FileCache.cleanPath requestPath) :=
  forall₂_congr fun requestPath _ => staysInside_iff cache requestPath

/-- A doubled slash leads out of the cache directory: the second one makes the path absolute. -/
theorem plainRequest_leaves_cacheDir :
    ¬ ∀ (cache : FileCache) (target requestPath : Bytes),
      plainRequestPath target = some requestPath → StaysInside cache requestPath := by
  intro hall
  have hinside := hall ⟨{}, lit "./cache", lit "ftp.debian.org"⟩ (lit "//etc/passwd")
    (lit "//etc/passwd") (by decide)
  exact absurd hinside (by decide)

-- One leading slash is removed, and a way down cancels a way up.
example : StaysInside ⟨{}, lit "./cache", []⟩ (lit "/debian/./pool/../dists//Release") := by decide

example : ¬ StaysInside ⟨{}, lit "./cache", []⟩ (lit "/../etc/passwd") := by decide

end PacPrism
